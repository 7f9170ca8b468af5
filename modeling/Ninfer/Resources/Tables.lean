/-
  When the tables of the manager agree, and what one change of a table keeps.

  `Holding` says which slots the open transaction holds. `Sound s H` relates the entries of both
  catalogues, the lanes and the session index: an entry is claimed exactly when `H` holds it and
  reserved exactly when one lane publishes in it, lanes hold edges to catalogued owners only, and
  every occupied index cell names the owner it describes.

  The operations change one entry or one lane at a time. `Sound.setEntry`, `Sound.setShared` and
  `Sound.setActive` are the three changes; `Indexed` has one lemma for each edit of the index.
  Between two changes of one operation `H` shrinks or grows with them, so `H` is a parameter here
  and read off the transaction only where an operation begins or ends.
-/
import Ninfer.Resources.ActiveCapture
import Ninfer.Resources.SessionIndex

namespace Ninfer.Resources

open Lib Function ResourceManager

/-! ## Slots and lanes -/

abbrev CatalogEntry.Live (e : CatalogEntry) : Prop := e.id ≠ 0 ∧ e.handle.isSome

abbrev CatalogEntry.Blank (e : CatalogEntry) : Prop :=
  e.id = 0 ∧ e.handle = none ∧ e.session = none

abbrev SharedCatalogEntry.Live (e : SharedCatalogEntry) : Prop := e.id ≠ 0 ∧ e.handle.isSome

abbrev SharedCatalogEntry.Blank (e : SharedCatalogEntry) : Prop := e.id = 0 ∧ e.handle = none

/-- The slots the open transaction holds. -/
structure Holding where
  priv : Nat → Prop := fun _ => False
  shared : Nat → Prop := fun _ => False
  captured : Nat → Prop := fun _ => False
  pinned : Nat → Prop := fun _ => False

structure PrivateSlot (e : CatalogEntry) (held published : Prop) : Prop where
  claimed : e.state = .claimed ↔ held
  reserved : e.state = .reservedForActive ↔ published
  vacant : e.state = .vacant → e.Blank
  catalogued : e.state = .catalogued → e.Live
  unfinished : e.state = .reservedForActive → e.id ≠ 0 ∧ e.handle = none

structure SharedSlot (e : SharedCatalogEntry) (held captured pinned : Prop) : Prop where
  claimed : e.state = .claimed ↔ held
  reserved : e.state = .reservedCapture ↔ captured
  pins : pinned → e.transactionPins = 1
  unpinned : ¬ pinned → e.transactionPins = 0
  vacant : e.state = .vacant → e.Blank
  catalogued : e.state = .catalogued → e.Live

namespace ResourceManager

/-- The lane publishes in the private slot. -/
abbrev Publishes (s : ResourceManager) (l j : Nat) : Prop :=
  l < s.laneCount ∧ (s.active l).occupied ∧ (s.active l).publicationSlot = some j

abbrev Published (s : ResourceManager) (j : Nat) : Prop := ∃ l, s.Publishes l j

/-- The tables that soundness reads. -/
abbrev tables (s : ResourceManager) := (s.laneCount, s.catalogCount, s.sharedCatalogCount,
  s.catalog, s.sharedCatalog, s.active, s.sessionIndex)

end ResourceManager

/-- The edges of a lane name catalogued owners by their ids. -/
structure LaneEdges (s : ResourceManager) (a : ActiveEntry) : Prop where
  publication : a.occupied → ∃ j < s.catalogCount, a.publicationSlot = some j ∧
    (s.catalog j).id = a.continuationId
  retained : ∀ e ∈ a.retainedPrivateSource, e.owner.kind = .privateContinuation ∧
    e.slot < s.catalogCount ∧ (s.catalog e.slot).state = .catalogued ∧
    (s.catalog e.slot).id = e.owner.id
  shared : ∀ e ∈ a.sharedSources, e.owner.kind = .sharedPrefix ∧
    e.slot < s.sharedCatalogCount ∧ (s.sharedCatalog e.slot).state = .catalogued ∧
    (s.sharedCatalog e.slot).id = e.owner.id
  distinct : (a.sharedSources.map (·.slot)).Nodup
  idle : a.occupied = false → a.retainedPrivateSource = none ∧ a.sharedSources = []

structure Sound (s : ResourceManager) (H : Holding) : Prop where
  priv : ∀ j < s.catalogCount, PrivateSlot (s.catalog j) (H.priv j) (s.Published j)
  shared : ∀ j < s.sharedCatalogCount,
    SharedSlot (s.sharedCatalog j) (H.shared j) (H.captured j) (H.pinned j)
  lane : ∀ l < s.laneCount, LaneEdges s (s.active l)
  publisher : ∀ l k j, s.Publishes l j → s.Publishes k j → l = k
  indexed : Indexed s.catalogCount s.catalog s.sessionIndex

section Sound

variable {s : ResourceManager} {H : Holding} {j l : Nat}

/-- Only the slots that exist matter. -/
theorem Sound.congrPriv (h : Sound s H) {P : Nat → Prop}
    (hP : ∀ j < s.catalogCount, H.priv j ↔ P j) : Sound s { H with priv := P } :=
  { h with priv := fun j hj => by simpa only [← hP j hj] using h.priv j hj }

theorem Sound.congrShared (h : Sound s H) {P : Nat → Prop}
    (hP : ∀ j < s.sharedCatalogCount, H.shared j ↔ P j) : Sound s { H with shared := P } :=
  { h with shared := fun j hj => by simpa only [← hP j hj] using h.shared j hj }

theorem Sound.congrCaptured (h : Sound s H) {P : Nat → Prop}
    (hP : ∀ j < s.sharedCatalogCount, H.captured j ↔ P j) : Sound s { H with captured := P } :=
  { h with shared := fun j hj => by simpa only [← hP j hj] using h.shared j hj }

theorem Sound.congrPinned (h : Sound s H) {P : Nat → Prop}
    (hP : ∀ j < s.sharedCatalogCount, H.pinned j ↔ P j) : Sound s { H with pinned := P } :=
  { h with shared := fun j hj => by simpa only [← hP j hj] using h.shared j hj }

/-- The tables that soundness reads are all it reads. -/
theorem Sound.transfer {t : ResourceManager} (h : Sound s H) (ht : t.tables = s.tables) :
    Sound t H := by
  simp only [tables, Prod.mk.injEq] at ht
  obtain ⟨hl, hn, hm, hc, hs, ha, hi⟩ := ht
  obtain ⟨h1, h2, h3, h4, h5⟩ := h
  refine ⟨?_, ?_, fun l hlt => ?_, ?_, ?_⟩
  · simpa [ResourceManager.Published, ResourceManager.Publishes, hl, hn, hc, ha] using h1
  · simpa [hm, hs] using h2
  · obtain ⟨e1, e2, e3, e4, e5⟩ := h3 l (hl ▸ hlt)
    rw [← ha] at e1 e2 e3 e4 e5
    refine ⟨?_, ?_, ?_, e4, e5⟩
    · simpa [hn, hc] using e1
    · simpa [hn, hc] using e2
    · simpa [hm, hs] using e3
  · simpa [ResourceManager.Publishes, hl, ha] using h4
  · simpa [hn, hc, hi] using h5

section

variable (h : Sound s H)

include h

theorem Sound.not_retained (hst : (s.catalog j).state ≠ .catalogued)
    (hl : l < s.laneCount) : ∀ e ∈ (s.active l).retainedPrivateSource, e.slot ≠ j := by
  rintro e he rfl
  exact hst ((h.lane l hl).retained e he).2.2.1

theorem Sound.not_shared (hst : (s.sharedCatalog j).state ≠ .catalogued)
    (hl : l < s.laneCount) : ∀ e ∈ (s.active l).sharedSources, e.slot ≠ j := by
  rintro e he rfl
  exact hst ((h.lane l hl).shared e he).2.2.1

theorem Sound.retained_of_edge (hl : l < s.laneCount)
    {e : ActiveOwnerEdge} (he : e ∈ (s.active l).retainedPrivateSource) :
    s.privateHasActiveEdge e.slot := by
  simp only [privateHasActiveEdge, List.any_eq_true, List.mem_range, decide_eq_true_eq]
  refine ⟨l, hl, ?_, ?_⟩
  · by_contra ho
    have := ((h.lane l hl).idle (by simpa using ho)).1
    rw [this] at he
    simp at he
  · rw [Option.mem_def.mp he]
    simp

theorem Sound.edge_of_count (hl : l < s.laneCount) {e : ActiveOwnerEdge}
    (he : e ∈ (s.active l).sharedSources) : s.sharedActiveEdgeCount e.slot ≠ 0 := by
  have hocc : (s.active l).occupied = true := by
    by_contra ho
    have := ((h.lane l hl).idle (by simpa using ho)).2
    rw [this] at he
    simp at he
  have hcount : 0 < (s.active l).sharedSources.countP (·.slot = e.slot) :=
    List.countP_pos_iff.mpr ⟨e, he, by simp⟩
  have hmem : (s.active l).sharedSources.countP (·.slot = e.slot) ∈
      (List.range s.laneCount).map fun l =>
        if (s.active l).occupied then (s.active l).sharedSources.countP (·.slot = e.slot) else 0 :=
    List.mem_map.mpr ⟨l, List.mem_range.mpr hl, by rw [if_pos hocc]⟩
  have := List.le_sum_of_mem hmem
  unfold sharedActiveEdgeCount
  omega

/-- One private entry and the index change. -/
theorem Sound.setEntry (hj : j < s.catalogCount) {e : CatalogEntry} {held : Prop}
    {index : Nat → SessionIndexEntry}
    (hslot : PrivateSlot e held (s.Published j))
    (hid : s.Published j → e.id = (s.catalog j).id)
    (hedge : s.privateHasActiveEdge j → e.state = .catalogued ∧ e.id = (s.catalog j).id)
    (hindex : Indexed s.catalogCount (update s.catalog j e) index) :
    Sound { s with catalog := update s.catalog j e, sessionIndex := index } { H with
      priv := update H.priv j held } where
  priv k hk := by
    by_cases hkj : k = j
    · subst hkj
      simpa using hslot
    · simpa [update_of_ne hkj] using h.priv k hk
  shared := h.shared
  lane l hl := by
    have hle := h.lane l hl
    refine ⟨fun ho => ?_, fun a ha => ?_, hle.shared, hle.distinct, hle.idle⟩
    · obtain ⟨k, hk, hps, hkid⟩ := hle.publication ho
      refine ⟨k, hk, hps, ?_⟩
      by_cases hkj : k = j
      · subst hkj
        simpa [hid ⟨l, hl, ho, hps⟩] using hkid
      · simpa [update_of_ne hkj] using hkid
    · obtain ⟨hkind, hlt, hst, haid⟩ := hle.retained a ha
      refine ⟨hkind, hlt, ?_⟩
      by_cases haj : a.slot = j
      · have hed := hedge (haj ▸ h.retained_of_edge hl ha)
        simp only [haj, update_self]
        exact ⟨hed.1, by rw [hed.2, ← haj]; exact haid⟩
      · simpa [update_of_ne haj] using ⟨hst, haid⟩
  publisher := h.publisher
  indexed := hindex

/-- One shared entry changes. -/
theorem Sound.setShared (hj : j < s.sharedCatalogCount) {e : SharedCatalogEntry}
    {held captured pinned : Prop} (hslot : SharedSlot e held captured pinned)
    (hedge : s.sharedActiveEdgeCount j ≠ 0 →
      e.state = .catalogued ∧ e.id = (s.sharedCatalog j).id) :
    Sound (s.setSharedEntry j e) { H with
      shared := update H.shared j held
      captured := update H.captured j captured
      pinned := update H.pinned j pinned } where
  priv := h.priv
  shared k hk := by
    by_cases hkj : k = j
    · subst hkj
      simpa [setSharedEntry] using hslot
    · simpa [setSharedEntry, update_of_ne hkj] using h.shared k hk
  lane l hl := by
    have hle := h.lane l hl
    refine ⟨hle.publication, hle.retained, fun a ha => ?_, hle.distinct, hle.idle⟩
    obtain ⟨hkind, hlt, hst, haid⟩ := hle.shared a ha
    refine ⟨hkind, hlt, ?_⟩
    by_cases haj : a.slot = j
    · have hed := hedge (haj ▸ h.edge_of_count hl ha)
      simp only [setSharedEntry, haj, update_self]
      exact ⟨hed.1, by rw [hed.2, ← haj]; exact haid⟩
    · simpa [setSharedEntry, update_of_ne haj] using ⟨hst, haid⟩
  publisher := h.publisher
  indexed := h.indexed

end

end Sound

end Ninfer.Resources
