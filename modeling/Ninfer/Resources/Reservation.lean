/-
  Reservation: what an opened record claims, and what a rolled back one gives back.

  A choice that passed `validateChoice` names catalogued owners that no lane holds. Claiming them
  makes the holding of the record exactly the slots it names; rolling back makes it empty again.
-/
import Ninfer.Resources.CaptureAdoption

namespace Ninfer.Resources

open Lib Function ResourceManager

variable {s : ResourceManager} {H : Holding}

/-! ## Claim lists as one change -/

theorem setCatalogState_eq (s : ResourceManager) (j : Nat) (st : CatalogState) :
    s.setCatalogState j st = { s with
      catalog := fun k => { s.catalog k with
        state := if k = j then st else (s.catalog k).state } } := by
  unfold setCatalogState setEntry
  congr 1
  funext k
  by_cases hk : k = j <;> simp [hk]

theorem setPrivateClaims_eq (s : ResourceManager) (claims : List OwnerClaim) (st : CatalogState) :
    s.setPrivateClaims claims st = { s with
      catalog := fun k => { s.catalog k with
        state := if slotsOf claims k then st else (s.catalog k).state } } := by
  induction claims generalizing s with
  | nil => simp [setPrivateClaims, slotsOf]
  | cons c claims ih =>
    show (s.setCatalogState c.capability.slot st).setPrivateClaims claims st = _
    simp [ih, setCatalogState_eq, slotsOf_cons, ite_or]

theorem setSharedState_eq (s : ResourceManager) (j : Nat) (st : SharedCatalogState) :
    s.setSharedState j st = { s with
      sharedCatalog := fun k => { s.sharedCatalog k with
        state := if k = j then st else (s.sharedCatalog k).state } } := by
  unfold setSharedState setSharedEntry
  congr 1
  funext k
  by_cases hk : k = j <;> simp [hk]

theorem setSharedClaims_eq (s : ResourceManager) (claims : List OwnerClaim)
    (st : SharedCatalogState) :
    s.setSharedClaims claims st = { s with
      sharedCatalog := fun k => { s.sharedCatalog k with
        state := if slotsOf claims k then st else (s.sharedCatalog k).state } } := by
  induction claims generalizing s with
  | nil => simp [setSharedClaims, slotsOf]
  | cons c claims ih =>
    show (s.setSharedState c.capability.slot st).setSharedClaims claims st = _
    simp [ih, setSharedState_eq, slotsOf_cons, ite_or]

/-! ## Changes of states and pins only -/

/-- Only lanes, transaction, the states of entries and pins may differ. -/
structure Relabelled (s t : ResourceManager) : Prop where
  frame : t = { s with
    lanes := t.lanes
    transaction := t.transaction
    catalog := t.catalog
    sharedCatalog := t.sharedCatalog }
  priv : ∀ k, ∃ st, t.catalog k = { s.catalog k with state := st }
  shared : ∀ k, ∃ st pins, t.sharedCatalog k = { s.sharedCatalog k with
    state := st
    transactionPins := pins }

theorem PrivateSlot.kept_or_blank {e : CatalogEntry} {held : Prop} (h : PrivateSlot e held False) :
    e.state.Kept ∨ e.Blank := by
  cases hst : e.state with
  | vacant => exact .inr (h.vacant hst)
  | catalogued => exact .inl (.inl rfl)
  | claimed => exact .inl (.inr rfl)
  | reservedForActive => exact (h.reserved.mp hst).elim

/-- An entry that no lane holds may move to another state; the others keep theirs. -/
theorem Sound.relabel {t : ResourceManager} {H' : Holding} (h : Sound s H) (ht : Relabelled s t)
    (hpriv : ∀ k < s.catalogCount,
      (t.catalog k).state = (s.catalog k).state ∧ (H.priv k ↔ H'.priv k) ∨
      ((s.catalog k).state ≠ .reservedForActive ∧ s.privateHasActiveEdge k = false) ∧
        PrivateSlot (t.catalog k) (H'.priv k) False)
    (hshared : ∀ k < s.sharedCatalogCount,
      ((t.sharedCatalog k).state = (s.sharedCatalog k).state ∨ s.sharedActiveEdgeCount k = 0) ∧
      SharedSlot (t.sharedCatalog k) (H'.shared k) (H'.captured k) (H'.pinned k)) : Sound t H' := by
  cases t
  cases ht.frame
  refine ⟨fun k hk => ?_, fun k hk => (hshared k hk).2, fun l hlt => ?_, h.publisher,
    h.indexed.linked, fun c hc ho => ?_⟩
  · rcases hpriv k hk with ⟨hst, hheld⟩ | ⟨⟨hres, _⟩, hslot⟩
    · obtain ⟨st, hk'⟩ := ht.priv k
      obtain rfl : st = (s.catalog k).state := by rw [← hst, hk']
      rw [hk', ← propext hheld]
      exact h.priv k hk
    · exact eq_false (h.not_published hk hres) ▸ hslot
  · obtain ⟨g1, g2, g3, g4, g5⟩ := h.lane l hlt
    refine ⟨fun ho => ?_, fun e he => ?_, fun e he => ?_, g4, g5⟩
    · obtain ⟨j, hj, hps, hid⟩ := g1 ho
      obtain ⟨st, hst⟩ := ht.priv j
      exact ⟨j, hj, hps, by rw [hst]; exact hid⟩
    · obtain ⟨hkind, hes, hst, hid⟩ := g2 e he
      obtain ⟨st, hst'⟩ := ht.priv e.slot
      refine ⟨hkind, hes, ?_, by rw [hst']; exact hid⟩
      rcases hpriv e.slot hes with ⟨hsame, _⟩ | ⟨⟨_, hno⟩, _⟩
      · exact hsame.trans hst
      · exact absurd (h.retained_of_edge hlt he) (by simp [hno])
    · obtain ⟨hkind, hes, hst, hid⟩ := g3 e he
      obtain ⟨st, pins, hst'⟩ := ht.shared e.slot
      refine ⟨hkind, hes, ?_, by rw [hst']; exact hid⟩
      rcases (hshared e.slot hes).1 with hsame | hno
      · exact hsame.trans hst
      · exact absurd hno (h.edge_of_count hlt he)
  · obtain ⟨j, hj, hd⟩ := h.indexed.names c hc ho
    obtain ⟨st, hst⟩ := ht.priv j
    refine ⟨j, hj, hd.keep ?_ (by rw [hst]) (by rw [hst]) (by rw [hst])⟩
    rcases hpriv j hj with ⟨hsame, _⟩ | ⟨_, hslot⟩
    · exact hsame ▸ hd.kept
    · refine hslot.kept_or_blank.resolve_right fun hb => ?_
      have hnone := hb.2.2
      rw [hst, hd.session] at hnone
      cases hnone

section SharedSlots

variable {e : SharedCatalogEntry} {held captured pinned : Prop}

theorem SharedSlot.ofClaimed (hst : e.state = .claimed) (hheld : held) (hc : ¬ captured)
    (hp : ¬ pinned) (hpins : e.transactionPins = 0) : SharedSlot e held captured pinned := by
  constructor <;> simp [*]

/-- An entry that keeps its state may get other pins. -/
theorem SharedSlot.repin {held' captured' pinned' : Prop} {pins : Nat}
    (h : SharedSlot e held captured pinned) (hheld : held ↔ held') (hc : captured ↔ captured')
    (hp : pinned' → pins = 1) (hu : ¬ pinned' → pins = 0) :
    SharedSlot { e with transactionPins := pins } held' captured' pinned' :=
  ⟨h.claimed.trans hheld, h.reserved.trans hc, hp, hu, h.vacant, h.catalogued⟩

end SharedSlots

/-! ## Choices -/

/-- What `validateChoice` found about a choice. -/
structure ChoiceOk (s : ResourceManager) (choice : Choice) : Prop where
  destination : choice.destination < s.laneCount
  free : s.lanes choice.destination = .free
  publication : choice.publicationSlot < s.catalogCount
  source : ∀ c ∈ choice.privateSource, c.slot < s.catalogCount ∧ s.PrivateUnchanged c ∧
    s.privateHasActiveEdge c.slot = false
  sharedSource : ∀ c ∈ choice.sharedSource, c.slot < s.sharedCatalogCount ∧ s.SharedUnchanged c
  claims : ∀ c ∈ choice.privateClaims, c.capability.slot < s.catalogCount ∧
    s.PrivateUnchanged c.capability ∧ s.privateHasActiveEdge c.capability.slot = false
  sharedClaims : ∀ c ∈ choice.sharedClaims, c.capability.slot < s.sharedCatalogCount ∧
    s.SharedUnchanged c.capability ∧ s.SharedIdle c.capability.slot
  privateApart : ∀ c ∈ choice.privateClaims, ∀ d ∈ choice.privateSource, c.capability.slot ≠ d.slot
  apart : ∀ c ∈ choice.sharedClaims, ∀ d ∈ choice.sharedSource, c.capability.slot ≠ d.slot
  cell : HasPublicationCell s choice

theorem checks_validateChoice (choice : Choice) (revision : UInt64) :
    Checks (validateChoice choice revision) s fun _ => ChoiceOk s choice := by
  have hclaim : ∀ c ∈ choice.privateClaims, Checks (validatePrivateClaim choice c) s fun _ =>
      (c.capability.slot < s.catalogCount ∧ s.PrivateUnchanged c.capability ∧
        s.privateHasActiveEdge c.capability.slot = false) ∧
      ∀ d ∈ choice.privateSource, c.capability.slot ≠ d.slot := by
    intro c _
    refine Checks.require.bind fun _ hlt => Checks.require.mono fun _ h => ?_
    exact ⟨⟨hlt.1, h.1, by simpa using h.2.2⟩, hlt.2⟩
  have hshared : ∀ c ∈ choice.sharedClaims, Checks (validateSharedClaim choice c) s fun _ =>
      (c.capability.slot < s.sharedCatalogCount ∧ s.SharedUnchanged c.capability ∧
        s.SharedIdle c.capability.slot) ∧
      ∀ d ∈ choice.sharedSource, c.capability.slot ≠ d.slot := by
    intro c _
    refine Checks.require.bind fun _ hlt => Checks.require.mono fun _ h => ?_
    exact ⟨⟨hlt.1, h.1, h.2.2⟩, hlt.2⟩
  refine Checks.require.bind fun _ hhead => Checks.require.bind fun _ hsrc =>
    Checks.require.bind fun _ hsrc' => Checks.require.bind fun _ hss =>
    Checks.require.bind fun _ hss' => (Checks.forEach hclaim).bind fun _ hcl =>
    (Checks.forEach hshared).bind fun _ hscl => Checks.require.mono fun _ hcell => ?_
  obtain ⟨_, hd, hfree, _, hp, _⟩ := hhead
  exact ⟨hd, hfree, hp, fun c hc => ⟨(hsrc c hc).2, (hsrc' c hc).1, by simpa using (hsrc' c hc).2⟩,
    fun c hc => ⟨(hss c hc).2, hss' c hc⟩, fun c hc => (hcl c hc).1, fun c hc => (hscl c hc).1,
    fun c hc => (hcl c hc).2, fun c hc => (hscl c hc).2, hcell⟩

/-- A consumed source is republished in its own slot. -/
def Choice.Bound (choice : Choice) : Prop :=
  choice.sourceMode = .consumeToActive → ∀ c ∈ choice.privateSource, choice.publicationSlot = c.slot

theorem ChoiceOk.fits (hok : ChoiceOk s choice) (hb : choice.Bound) :
    (takeMaterializationRecord choice).Fits := by
  refine ⟨fun hm c hc => (hb hm c hc).symm, fun hm c hc heq => ?_⟩
  rcases hok.cell with hv | ⟨hm', _⟩ | hany
  · have hcat := (hok.source c hc).2.1.1
    rw [show c.slot = choice.publicationSlot from heq, hv] at hcat
    simp at hcat
  · exact absurd (hm.symm.trans hm') (by simp)
  · cases hfind : choice.privateClaims.find? (·.capability.slot = choice.publicationSlot) with
    | none => simp [hfind] at hany
    | some d =>
      have hslot := List.find?_some hfind
      exact hok.privateApart d (List.mem_of_find?_eq_some hfind) c hc
        ((of_decide_eq_true hslot).trans heq.symm)

/-! ## Sources -/

section Sources

variable {source : Option CatalogCapability}

variable (s : ResourceManager)

variable (source : Option CatalogCapability)

theorem setSource_eq (st : CatalogState) :
    (source.elim s fun c => s.setCatalogState c.slot st) = { s with
      catalog := fun k => { s.catalog k with
        state := if sourceSlot source k then st else (s.catalog k).state } } := by
  cases source with
  | none => simp [sourceSlot]
  | some c => simp [setCatalogState_eq, sourceSlot_some]

theorem setPins_eq (f : Nat → Nat) :
    (source.elim s fun c => s.setSharedEntry c.slot { s.sharedCatalog c.slot with
      transactionPins := f (s.sharedCatalog c.slot).transactionPins }) = { s with
      sharedCatalog := fun k => { s.sharedCatalog k with
        transactionPins := if sourceSlot source k then f (s.sharedCatalog k).transactionPins
          else (s.sharedCatalog k).transactionPins } } := by
  cases source with
  | none => simp [sourceSlot]
  | some c =>
    simp only [Option.elim_some, setSharedEntry, sourceSlot_some]
    congr 1
    funext k
    by_cases hk : k = c.slot <;> simp [hk]

theorem pinSource_eq :
    (source.elim s fun c => s.pinShared c.slot) = { s with
      sharedCatalog := fun k => { s.sharedCatalog k with
        transactionPins := if sourceSlot source k then (s.sharedCatalog k).transactionPins + 1
          else (s.sharedCatalog k).transactionPins } } :=
  setPins_eq s source (· + 1)

theorem unpinSource_eq :
    (source.elim s fun c => s.unpinShared c.slot) = { s with
      sharedCatalog := fun k => { s.sharedCatalog k with
        transactionPins := if sourceSlot source k then (s.sharedCatalog k).transactionPins - 1
          else (s.sharedCatalog k).transactionPins } } :=
  setPins_eq s source (· - 1)

end Sources

/-! ## Materializations -/

section Materialization

variable {choice : Choice}

/-- A publication slot that meets a condition moves to another state. -/
theorem setStateIf_eq (s : ResourceManager) (p : Nat) (st : CatalogState)
    (cond : CatalogEntry → Prop) [DecidablePred cond] :
    (if cond (s.catalog p) then s.setCatalogState p st else s) = { s with
      catalog := fun k => { s.catalog k with
        state := if k = p ∧ cond (s.catalog k) then st else (s.catalog k).state } } := by
  have hat : ∀ k, (k = p ∧ cond (s.catalog k)) ↔ (k = p ∧ cond (s.catalog p)) :=
    fun k => and_congr_right fun hk => by rw [hk]
  simp only [hat]
  by_cases hc : cond (s.catalog p) <;> simp [hc, setCatalogState_eq]

/-- The state a private entry has in an opened record. -/
def reservedState (s : ResourceManager) (r : MaterializationRecord) (k : Nat) : CatalogState :=
  if slotsOf r.privateClaims k ∨ sourceSlot r.privateSource k ∨
      (k = r.publicationSlot ∧ (s.catalog k).state = .vacant) then .claimed
  else (s.catalog k).state

theorem reserveLogical_eq (s : ResourceManager) (r : MaterializationRecord) :
    s.reserveLogicalMaterialization r = { s with
      lanes := update s.lanes r.destination .materializing
      catalog := fun k => { s.catalog k with state := reservedState s r k }
      sharedCatalog := fun k => { s.sharedCatalog k with
        state := if slotsOf r.sharedClaims k then .claimed else (s.sharedCatalog k).state
        transactionPins := if sourceSlot r.sharedSource k then
            (s.sharedCatalog k).transactionPins + 1
          else (s.sharedCatalog k).transactionPins } } := by
  have hcat : ∀ k, reservedState s r k =
      if k = r.publicationSlot ∧ (if slotsOf r.privateClaims k then CatalogState.claimed
          else if sourceSlot r.privateSource k then .claimed else (s.catalog k).state) = .vacant
        then .claimed
      else if slotsOf r.privateClaims k then .claimed
      else if sourceSlot r.privateSource k then .claimed else (s.catalog k).state := by
    intro k
    unfold reservedState
    by_cases hcl : slotsOf r.privateClaims k
    · simp [hcl]
    · by_cases hsrc : sourceSlot r.privateSource k <;> simp [hcl, hsrc]
  refine (setStateIf_eq _ r.publicationSlot .claimed (·.state = .vacant)).trans ?_
  rw [setSharedClaims_eq, setPrivateClaims_eq, pinSource_eq, setSource_eq]
  simp only [hcat]
  rfl

/-- The slots a choice names are catalogued, but for a vacant publication slot. -/
theorem ChoiceOk.named (hok : ChoiceOk s choice) (k : Nat) :
    (takeMaterializationRecord choice).NamesPrivate k →
      ((slotsOf choice.privateClaims k ∨ sourceSlot choice.privateSource k) ∧
        (s.catalog k).state = .catalogued ∧ s.privateHasActiveEdge k = false) ∨
      (k = choice.publicationSlot ∧ (s.catalog k).state = .vacant) := by
  have hsrc : sourceSlot choice.privateSource k →
      (s.catalog k).state = .catalogued ∧ s.privateHasActiveEdge k = false := by
    rintro ⟨c, hc, rfl⟩
    exact ⟨(hok.source c hc).2.1.1, (hok.source c hc).2.2⟩
  have hcl : slotsOf choice.privateClaims k →
      (s.catalog k).state = .catalogued ∧ s.privateHasActiveEdge k = false := by
    rintro ⟨c, hc, rfl⟩
    exact ⟨(hok.claims c hc).2.1.1, (hok.claims c hc).2.2⟩
  rintro (h | h | h)
  · exact .inl ⟨.inr h, hsrc h⟩
  · exact .inl ⟨.inl h, hcl h⟩
  · subst h
    rcases hok.cell with hv | ⟨_, c, hc, hp⟩ | hany
    · exact .inr ⟨rfl, hv⟩
    · have : sourceSlot choice.privateSource choice.publicationSlot := ⟨c, hc, hp.symm⟩
      exact .inl ⟨.inr this, hsrc this⟩
    · cases hf : choice.privateClaims.find? (·.capability.slot = choice.publicationSlot) with
      | none => simp [hf] at hany
      | some c =>
        have : slotsOf choice.privateClaims choice.publicationSlot :=
          ⟨c, List.mem_of_find?_eq_some hf, by simpa using List.find?_some hf⟩
        exact .inl ⟨.inl this, hcl this⟩

theorem ChoiceOk.reservedState_eq (hok : ChoiceOk s choice) (k : Nat) :
    ((takeMaterializationRecord choice).NamesPrivate k ∧
      reservedState s (takeMaterializationRecord choice) k = .claimed) ∨
    (¬ (takeMaterializationRecord choice).NamesPrivate k ∧
      reservedState s (takeMaterializationRecord choice) k = (s.catalog k).state) := by
  by_cases hk : (takeMaterializationRecord choice).NamesPrivate k
  · refine .inl ⟨hk, if_pos ?_⟩
    rcases hok.named k hk with ⟨h | h, _⟩ | h
    · exact .inl h
    · exact .inr (.inl h)
    · exact .inr (.inr h)
  · refine .inr ⟨hk, if_neg ?_⟩
    rintro (h | h | h)
    · exact hk (.inr (.inl h))
    · exact hk (.inl h)
    · exact hk (.inr (.inr h.1))

theorem Sound.reserveLogical (hs : Sound s {}) (hok : ChoiceOk s choice) :
    Sound (s.reserveLogicalMaterialization (takeMaterializationRecord choice))
      (takeMaterializationRecord choice).holding := by
  rw [reserveLogical_eq]
  refine hs.relabel ⟨rfl, fun k => ⟨_, rfl⟩, fun k => ⟨_, _, rfl⟩⟩ (fun k hk => ?_) (fun k hk => ?_)
  · rcases hok.reservedState_eq k with ⟨hn, he⟩ | ⟨hn, he⟩
    · refine .inr ⟨?_, ?_⟩
      · rcases hok.named k hn with ⟨_, hst, hno⟩ | ⟨_, hst⟩
        · exact ⟨by simp [hst], hno⟩
        · exact ⟨by simp [hst], hs.no_edge (by simp [hst])⟩
      · show PrivateSlot _ ((takeMaterializationRecord choice).NamesPrivate k) False
        rw [eq_true hn]
        exact PrivateSlot.ofClaimed he
    · exact .inl ⟨he, iff_of_false id hn⟩
  · have hslot := hs.shared k hk
    have hpins := hslot.unpinned id
    by_cases hcl : slotsOf choice.sharedClaims k
    · obtain ⟨c, hc, rfl⟩ := hcl
      have hnsrc : ¬ sourceSlot choice.sharedSource c.capability.slot := by
        rintro ⟨d, hd, hcd⟩
        exact hok.apart c hc d hd hcd.symm
      refine ⟨.inr (hok.sharedClaims c hc).2.2.2, ?_⟩
      exact SharedSlot.ofClaimed (if_pos ⟨c, hc, rfl⟩) ⟨c, hc, rfl⟩ id hnsrc
        ((if_neg hnsrc).trans hpins)
    · refine ⟨.inl (if_neg hcl), ?_⟩
      show SharedSlot { s.sharedCatalog k with
        state := if slotsOf choice.sharedClaims k then _ else _
        transactionPins := _ } _ _ _
      rw [if_neg hcl]
      exact hslot.repin (iff_of_false id hcl) .rfl (fun h => (if_pos h).trans (by rw [hpins]))
        fun h => (if_neg h).trans hpins

/-- What the record relies on, right after it was opened. -/
theorem ChoiceOk.pending (hs : Sound s {}) (hok : ChoiceOk s choice) (hb : choice.Bound) :
    PendingOk (s.reserveLogicalMaterialization (takeMaterializationRecord choice))
      (takeMaterializationRecord choice) := by
  rw [reserveLogical_eq]
  refine ⟨hok.publication, fun c hc => ?_, fun c hc => ?_, fun hsrc hcl => ?_, hok.fits hb,
    fun c hc => ?_, fun c hc => ?_⟩
  · obtain ⟨hlt, hun, _⟩ := hok.source c hc
    exact ⟨hlt, (hs.priv c.slot hlt).catalogued hun.1⟩
  · obtain ⟨hlt, hun, _⟩ := hok.claims c hc
    exact ⟨hlt, (hs.priv c.capability.slot hlt).catalogued hun.1⟩
  · rcases hok.named choice.publicationSlot (.inr (.inr rfl)) with ⟨h | h, _⟩ | ⟨_, hv⟩
    · exact absurd h hcl
    · exact absurd h hsrc
    · exact (hs.priv _ hok.publication).vacant hv
  · obtain ⟨hlt, hun⟩ := hok.sharedSource c hc
    have hncl : ¬ slotsOf choice.sharedClaims c.slot := by
      rintro ⟨d, hd, hdc⟩
      exact hok.apart d hd c hc hdc
    refine ⟨hlt, ?_⟩
    show (if slotsOf choice.sharedClaims c.slot then _ else _) = _
    rw [if_neg hncl]
    exact hun.1
  · obtain ⟨hlt, hun, _⟩ := hok.sharedClaims c hc
    exact ⟨hlt, (hs.shared c.capability.slot hlt).catalogued hun.1⟩

variable {r : MaterializationRecord}

/-- The state a private entry has once a record was rolled back. -/
def rolledBackState (s : ResourceManager) (r : MaterializationRecord) (k : Nat) : CatalogState :=
  if k = r.publicationSlot ∧ (s.catalog k).id = 0 ∧ (s.catalog k).handle = none then .vacant
  else if slotsOf r.privateClaims k ∨ sourceSlot r.privateSource k then .catalogued
  else (s.catalog k).state

theorem rollbackLogical_eq (s : ResourceManager) (r : MaterializationRecord) :
    s.rollbackLogicalMaterialization r = { s with
      lanes := update s.lanes r.destination .free
      catalog := fun k => { s.catalog k with state := rolledBackState s r k }
      sharedCatalog := fun k => { s.sharedCatalog k with
        state := if slotsOf r.sharedClaims k then .catalogued else (s.sharedCatalog k).state
        transactionPins := if sourceSlot r.sharedSource k then
            (s.sharedCatalog k).transactionPins - 1
          else (s.sharedCatalog k).transactionPins } } := by
  have hcat : ∀ k, rolledBackState s r k =
      if k = r.publicationSlot ∧ (s.catalog k).id = 0 ∧ (s.catalog k).handle = none then .vacant
      else if slotsOf r.privateClaims k then .catalogued
      else if sourceSlot r.privateSource k then .catalogued else (s.catalog k).state := by
    intro k
    unfold rolledBackState
    by_cases hcl : slotsOf r.privateClaims k
    · simp [hcl]
    · by_cases hsrc : sourceSlot r.privateSource k <;> simp [hcl, hsrc]
  refine (setStateIf_eq _ r.publicationSlot .vacant fun e => e.id = 0 ∧ e.handle = none).trans ?_
  rw [setSharedClaims_eq, setPrivateClaims_eq, unpinSource_eq, setSource_eq]
  simp only [hcat]
  rfl

/-- A named slot holds a live owner that becomes catalogued, or is the blank publication slot. -/
theorem PendingOk.rolledBack (hp : PendingOk s r) {k : Nat} (hk : r.NamesPrivate k) :
    (rolledBackState s r k = .catalogued ∧ (s.catalog k).Live) ∨
      (rolledBackState s r k = .vacant ∧ (s.catalog k).Blank) := by
  by_cases hown : slotsOf r.privateClaims k ∨ sourceSlot r.privateSource k
  · have hlive : (s.catalog k).Live := by
      rcases hown with ⟨c, hc, rfl⟩ | ⟨c, hc, rfl⟩
      · exact (hp.claims c hc).2
      · exact (hp.source c hc).2
    refine .inl ⟨?_, hlive⟩
    unfold rolledBackState
    rw [if_neg fun h => hlive.1 h.2.1, if_pos hown]
  · push Not at hown
    obtain rfl : k = r.publicationSlot := by
      rcases hk with h | h | h
      · exact absurd h hown.2
      · exact absurd h hown.1
      · exact h
    have hb := hp.spare hown.2 hown.1
    exact .inr ⟨if_pos ⟨rfl, hb.1, hb.2.1⟩, hb⟩

theorem Sound.rollbackLogical (hs : Sound s r.holding) (hp : PendingOk s r) :
    Sound (s.rollbackLogicalMaterialization r) {} := by
  have hun : ∀ k, ¬ r.NamesPrivate k → rolledBackState s r k = (s.catalog k).state := by
    intro k hk
    unfold rolledBackState
    rw [if_neg fun h => hk (.inr (.inr h.1)), if_neg]
    rintro (h | h)
    · exact hk (.inr (.inl h))
    · exact hk (.inl h)
  rw [rollbackLogical_eq]
  refine hs.relabel ⟨rfl, fun k => ⟨_, rfl⟩, fun k => ⟨_, _, rfl⟩⟩ (fun k hk => ?_) (fun k hk => ?_)
  · by_cases hn : r.NamesPrivate k
    · have hst : (s.catalog k).state = .claimed := (hs.priv k hk).claimed.mpr hn
      refine .inr ⟨⟨by simp [hst], hs.no_edge (by simp [hst])⟩, ?_⟩
      rcases hp.rolledBack hn with ⟨he, hl⟩ | ⟨he, hb⟩
      · exact PrivateSlot.ofCatalogued he hl
      · exact PrivateSlot.ofVacant he hb
    · exact .inl ⟨hun k hn, iff_of_false hn id⟩
  · have hslot := hs.shared k hk
    have hpins : (if sourceSlot r.sharedSource k then (s.sharedCatalog k).transactionPins - 1
        else (s.sharedCatalog k).transactionPins) = 0 := by
      by_cases hsrc : sourceSlot r.sharedSource k
      · rw [if_pos hsrc, hslot.pins hsrc]
      · rw [if_neg hsrc, hslot.unpinned hsrc]
    by_cases hcl : slotsOf r.sharedClaims k
    · have hst := hslot.claimed.mpr hcl
      refine ⟨.inr (hs.no_shared_edge (by simp [hst])), ?_⟩
      obtain ⟨c, hc, rfl⟩ := hcl
      exact SharedSlot.ofCatalogued (if_pos ⟨c, hc, rfl⟩) (hp.sharedClaims c hc).2 hpins
    · refine ⟨.inl (if_neg hcl), ?_⟩
      simp only [if_neg hcl]
      exact hslot.repin (iff_of_false hcl id) .rfl False.elim fun _ => hpins

end Materialization

/-! ## Captures -/

section Capture

variable {r : ActiveCaptureRecord} {slot : Nat}

/-- What the checks of a selected capture found about its record. -/
structure CaptureChosen (s : ResourceManager) (r : ActiveCaptureRecord) (slot : Nat) : Prop where
  publication : r.publicationSlot = some slot
  claims : ∀ c ∈ r.privateClaims, c.capability.slot < s.catalogCount ∧
    s.PrivateUnchanged c.capability ∧ s.privateHasActiveEdge c.capability.slot = false
  sharedClaims : ∀ c ∈ r.sharedClaims, c.capability.slot < s.sharedCatalogCount ∧
    c.capability.slot ≠ slot ∧ s.SharedUnchanged c.capability ∧ s.SharedIdle c.capability.slot
  lt : slot < s.sharedCatalogCount
  idle : s.SharedIdle slot
  vacant : r.replacementId = 0 → (s.sharedCatalog slot).state = .vacant
  replaced : r.replacementId ≠ 0 → (s.sharedCatalog slot).state = .catalogued
  publishes : r.publishesShared = true

/-- The claims of a capture move to one state each, and its slot to a third. -/
theorem captureStates_eq (s : ResourceManager) (r : ActiveCaptureRecord) (slot : Nat)
    (st : CatalogState) (sst cst : SharedCatalogState) :
    ((s.setPrivateClaims r.privateClaims st).setSharedClaims r.sharedClaims sst).setSharedState
      slot cst = { s with
      catalog := fun k => { s.catalog k with
        state := if slotsOf r.privateClaims k then st else (s.catalog k).state }
      sharedCatalog := fun k => { s.sharedCatalog k with
        state := if k = slot then cst else if slotsOf r.sharedClaims k then sst
          else (s.sharedCatalog k).state } } := by
  rw [setSharedClaims_eq, setPrivateClaims_eq, setSharedState_eq]

theorem Sound.reserveCapture (hs : Sound s {}) (hok : CaptureChosen s r slot) :
    Sound (s.reserveLogicalActiveCapture r slot) r.holding := by
  unfold reserveLogicalActiveCapture
  rw [captureStates_eq]
  have hclaims : ∀ k, slotsOf r.privateClaims k → (s.catalog k).state = .catalogued ∧
      s.privateHasActiveEdge k = false := by
    rintro k ⟨c, hc, rfl⟩
    exact ⟨(hok.claims c hc).2.1.1, (hok.claims c hc).2.2⟩
  refine hs.relabel ⟨rfl, fun k => ⟨_, rfl⟩, fun k => ⟨_, _, rfl⟩⟩ (fun k hk => ?_) (fun k hk => ?_)
  · by_cases hcl : slotsOf r.privateClaims k
    · obtain ⟨hst, hno⟩ := hclaims k hcl
      refine .inr ⟨⟨by simp [hst], hno⟩, ?_⟩
      show PrivateSlot _ (slotsOf r.privateClaims k) _
      rw [eq_true hcl]
      exact PrivateSlot.ofClaimed (if_pos hcl)
    · exact .inl ⟨if_neg hcl, iff_of_false id hcl⟩
  · have hslot := hs.shared k hk
    have hpins := hslot.unpinned id
    show _ ∧ SharedSlot _ (slotsOf r.sharedClaims k) (r.publicationSlot = some k) False
    rw [hok.publication]
    by_cases hks : k = slot
    · subst hks
      have hncl : ¬ slotsOf r.sharedClaims k := by
        rintro ⟨c, hc, hck⟩
        exact (hok.sharedClaims c hc).2.1 hck
      refine ⟨.inr hok.idle.2, ?_⟩
      exact ⟨by simp [hncl], by simp, False.elim, fun _ => hpins, by simp, by simp⟩
    · have hne : ¬ (some slot = some k) := fun h => hks (Option.some.inj h).symm
      simp only [if_neg hks]
      by_cases hcl : slotsOf r.sharedClaims k
      · obtain ⟨c, hc, rfl⟩ := hcl
        exact ⟨.inr (hok.sharedClaims c hc).2.2.2.2,
          SharedSlot.ofClaimed (if_pos ⟨c, hc, rfl⟩) ⟨c, hc, rfl⟩ hne id hpins⟩
      · simp only [if_neg hcl]
        exact ⟨.inl trivial, hslot.repin (iff_of_false id hcl) (iff_of_false id hne) False.elim
          fun _ => hpins⟩

theorem CaptureChosen.captureOk (hs : Sound s {}) (hok : CaptureChosen s r slot) :
    CaptureOk (s.reserveLogicalActiveCapture r slot) r := by
  unfold reserveLogicalActiveCapture
  rw [captureStates_eq]
  refine ⟨fun c hc => ?_, fun c hc => ?_, fun j hj => ?_, fun h => ?_⟩
  · obtain ⟨hlt, hun, _⟩ := hok.claims c hc
    exact ⟨hlt, (hs.priv _ hlt).catalogued hun.1⟩
  · obtain ⟨hlt, _, hun, _⟩ := hok.sharedClaims c hc
    exact ⟨hlt, (hs.shared _ hlt).catalogued hun.1⟩
  · obtain rfl := Option.mem_unique hok.publication hj
    exact ⟨hok.lt, fun h => (hs.shared _ hok.lt).vacant (hok.vacant h),
      fun h => (hs.shared _ hok.lt).catalogued (hok.replaced h)⟩
  · rw [hok.publishes] at h
    simp at h

theorem Sound.rollbackCapture (hs : Sound s r.holding) (hp : CaptureOk s r)
    (hslot : r.publicationSlot = some slot) :
    Sound (s.rollbackLogicalActiveCapture r slot) {} := by
  obtain ⟨hlt, hblank, hlive⟩ := hp.publication slot hslot
  unfold rollbackLogicalActiveCapture
  rw [captureStates_eq]
  refine hs.relabel ⟨rfl, fun k => ⟨_, rfl⟩, fun k => ⟨_, _, rfl⟩⟩ (fun k hk => ?_) (fun k hk => ?_)
  · by_cases hcl : slotsOf r.privateClaims k
    · have hst : (s.catalog k).state = .claimed := (hs.priv k hk).claimed.mpr hcl
      refine .inr ⟨⟨by simp [hst], hs.no_edge (by simp [hst])⟩, ?_⟩
      obtain ⟨c, hc, rfl⟩ := hcl
      exact PrivateSlot.ofCatalogued (if_pos ⟨c, hc, rfl⟩) (hp.claims c hc).2
    · exact .inl ⟨if_neg hcl, iff_of_false hcl id⟩
  · have hslotk := hs.shared k hk
    have hpins := hslotk.unpinned id
    by_cases hks : k = slot
    · subst hks
      have hst := hslotk.reserved.mpr hslot
      refine ⟨.inr (hs.no_shared_edge (by simp [hst])), ?_⟩
      by_cases hrep : r.replacementId = 0
      · simp only [if_pos hrep]
        exact SharedSlot.ofVacant rfl (hblank hrep) hpins
      · simp only [if_neg hrep]
        exact SharedSlot.ofCatalogued rfl (hlive hrep) hpins
    · simp only [if_neg hks]
      by_cases hcl : slotsOf r.sharedClaims k
      · have hst := hslotk.claimed.mpr hcl
        refine ⟨.inr (hs.no_shared_edge (by simp [hst])), ?_⟩
        obtain ⟨c, hc, rfl⟩ := hcl
        exact SharedSlot.ofCatalogued (if_pos ⟨c, hc, rfl⟩) (hp.sharedClaims c hc).2 hpins
      · have hne : ¬ r.holding.captured k := fun h =>
          hks (Option.some.inj (hslot.symm.trans h)).symm
        simp only [if_neg hcl]
        exact ⟨.inl trivial, hslotk.repin (iff_of_false hcl id) (iff_of_false hne id) False.elim
          fun _ => hpins⟩

end Capture

end Ninfer.Resources
