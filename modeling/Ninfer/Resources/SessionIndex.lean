/-
  The session index over the private catalogue.

  `Indexed` is the agreement of the open-addressed index with the catalogue it points into: the
  probe chains are unbroken, a key has one cell, and every occupied cell describes a catalogued
  or claimed owner by slot, id, revision and session. There is one lemma for each edit the
  manager makes, and `Indexed.exists_free`: while some slot is in no cell, some cell is free.
-/
import Ninfer.Resources.Lanes

namespace Ninfer.Resources

open Lib Function

/-! ## Agreement -/

/-- The owner of an entry is in the catalogue, at rest or claimed. -/
abbrev CatalogState.Kept (st : CatalogState) : Prop := st = .catalogued ∨ st = .claimed

/-- The cell describes the owner in the slot `j`. -/
structure Describes (c : SessionIndexEntry) (j : Nat) (e : CatalogEntry) : Prop where
  slot : c.slot = some j
  kept : e.state.Kept
  id : c.ownerId = e.id
  revision : c.revision = e.revision
  session : e.session = some c.key

/-- The index of `n` cells over a catalogue of `n` slots. -/
structure Indexed (n : Nat) (catalog : Nat → CatalogEntry) (index : Nat → SessionIndexEntry) :
    Prop where
  linked : Probing.Linked (·.state) (·.key) (sessionHome n) index n
  names : ∀ c < n, (index c).state = .occupied → ∃ j < n, Describes (index c) j (catalog j)

section Indexed

variable {n j : Nat} {catalog : Nat → CatalogEntry} {index : Nat → SessionIndexEntry}
  {e : CatalogEntry}

theorem Describes.keep {c : SessionIndexEntry} {e e' : CatalogEntry} (h : Describes c j e)
    (hs : e'.state.Kept) (hid : e'.id = e.id) (hr : e'.revision = e.revision)
    (hk : e'.session = e.session) : Describes c j e' :=
  ⟨h.slot, hs, hid ▸ h.id, hr ▸ h.revision, hk ▸ h.session⟩

/-- No occupied cell names the slot. -/
def Unnamed (n : Nat) (index : Nat → SessionIndexEntry) (j : Nat) : Prop :=
  ∀ c < n, (index c).state = .occupied → (index c).slot ≠ some j

section

variable (h : Indexed n catalog index)

include h

theorem Indexed.unnamed_of_not_kept (hj : ¬ (catalog j).state.Kept) : Unnamed n index j := by
  intro c hc ho hslot
  obtain ⟨k, _, hd⟩ := h.names c hc ho
  have hkj : k = j := Option.some.inj (by rw [← hd.slot, hslot])
  exact hj (hkj ▸ hd.kept)

theorem Indexed.unnamed_of_no_session (hj : (catalog j).session = none) : Unnamed n index j := by
  intro c hc ho hslot
  obtain ⟨k, _, hd⟩ := h.names c hc ho
  have hkj : k = j := Option.some.inj (by rw [← hd.slot, hslot])
  have := hkj ▸ hd.session
  rw [hj] at this
  simp at this

/-- A change of one entry that keeps what the index says of it. -/
theorem Indexed.setEntry (he : ∀ c, Describes c j (catalog j) → Describes c j e) :
    Indexed n (update catalog j e) index := by
  refine ⟨h.linked, fun c hc ho => ?_⟩
  obtain ⟨k, hk, hd⟩ := h.names c hc ho
  refine ⟨k, hk, ?_⟩
  by_cases hkj : k = j
  · subst hkj
    rw [update_self]
    exact he _ hd
  · rwa [update_of_ne hkj]

/-- A change of an entry that no cell names. -/
theorem Indexed.setUnnamed (hj : Unnamed n index j) :
    Indexed n (update catalog j e) index := by
  refine ⟨h.linked, fun c hc ho => ?_⟩
  obtain ⟨k, hk, hd⟩ := h.names c hc ho
  have hkj : k ≠ j := by
    rintro rfl
    exact hj c hc ho hd.slot
  exact ⟨k, hk, by rwa [update_of_ne hkj]⟩

/-- The owner of the slot leaves the index with all its cells. -/
theorem Indexed.erase (hid : (catalog j).id ≠ 0) :
    Indexed n (update catalog j e) (eraseSessionIfOwner (catalog j).id index) := by
  have hcell : ∀ c, eraseSessionIfOwner (catalog j).id index c =
      if (index c).state = .occupied ∧ (index c).ownerId = (catalog j).id then
        erasedCell (index c) else index c := by
    intro c
    rw [eraseSessionIfOwner, if_neg hid]
  refine ⟨h.linked.shrink ?_ ?_, fun c hc ho => ?_⟩
  · intro c _ hempty
    rw [hcell] at hempty
    split at hempty
    · simp [erasedCell] at hempty
    · exact hempty
  · intro c _ ho
    rw [hcell] at ho ⊢
    split at ho
    · simp [erasedCell] at ho
    · next hn =>
      rw [if_neg hn]
      exact ⟨ho, rfl⟩
  · rw [hcell] at ho ⊢
    split at ho
    · simp [erasedCell] at ho
    · next hn =>
      rw [if_neg hn]
      obtain ⟨k, hk, hd⟩ := h.names c hc ho
      have hkj : k ≠ j := by
        rintro rfl
        exact hn ⟨ho, hd.id⟩
      exact ⟨k, hk, by rwa [update_of_ne hkj]⟩

/-- Two occupied cells of one slot are one cell. -/
theorem Indexed.cell_unique {c d : Nat} (hc : c < n) (hd : d < n)
    (hco : (index c).state = .occupied) (hdo : (index d).state = .occupied)
    (hslot : (index c).slot = (index d).slot) : c = d := by
  obtain ⟨i, _, hi⟩ := h.names c hc hco
  obtain ⟨k, _, hk⟩ := h.names d hd hdo
  have hik : i = k := Option.some.inj (by rw [← hi.slot, ← hk.slot, hslot])
  subst hik
  have hkey : (index c).key = (index d).key :=
    Option.some.inj (by rw [← hi.session, ← hk.session])
  exact h.linked.unique c hc d hd hco hdo hkey

/-- The owner keeps its id and session and moves to a new revision, and its cell with it. -/
theorem Indexed.refresh (hj : j < n) (hid : (catalog j).id ≠ 0)
    (hs : e.state.Kept) (heid : e.id = (catalog j).id) (hkey : e.session = (catalog j).session) :
    Indexed n (update catalog j e)
      (refreshSessionOwnerRevision n n (catalog j).id j e.revision index) := by
  have hcond : ¬ ((catalog j).id = 0 ∨ j ≥ n) := by
    simp only [not_or, not_le]
    exact ⟨hid, hj⟩
  unfold refreshSessionOwnerRevision
  rw [if_neg hcond]
  split
  · next hfind =>
    -- no cell names the slot
    refine ⟨h.linked, fun c hc ho => ?_⟩
    obtain ⟨k, hk, hd⟩ := h.names c hc ho
    have hkj : k ≠ j := by
      rintro rfl
      have := List.find?_eq_none.mp hfind c (List.mem_range.mpr hc)
      simp [ho, hd.id, hd.slot] at this
    exact ⟨k, hk, by rwa [update_of_ne hkj]⟩
  · next c hfind =>
    have hc : c < n := List.mem_range.mp (List.mem_of_find?_eq_some hfind)
    have hcell := List.find?_some hfind
    simp only [decide_eq_true_eq] at hcell
    obtain ⟨hco, hown, hslot⟩ := hcell
    have hcells : ∀ d, (update index c { index c with revision := e.revision } d).state =
          (index d).state ∧
        (update index c { index c with revision := e.revision } d).key = (index d).key := by
      intro d
      by_cases hdc : d = c
      · subst hdc
        simp
      · simp [update_of_ne hdc]
    refine ⟨h.linked.shrink (fun d _ hd => (hcells d).1 ▸ hd)
      (fun d _ hd => ⟨(hcells d).1 ▸ hd, (hcells d).2⟩), fun d hd hdo => ?_⟩
    rw [(hcells d).1] at hdo
    obtain ⟨k, hk, hdesc⟩ := h.names d hd hdo
    by_cases hdc : d = c
    · subst hdc
      have hkj : k = j := Option.some.inj (by rw [← hdesc.slot, hslot])
      subst hkj
      refine ⟨k, hk, ?_⟩
      rw [update_self, update_self]
      exact ⟨hdesc.slot, hs, by rw [heid]; exact hdesc.id, rfl, by rw [hkey]; exact hdesc.session⟩
    · have hkj : k ≠ j := by
        rintro rfl
        exact hdc (h.cell_unique hd hc hdo hco (by rw [hdesc.slot, hslot]))
      exact ⟨k, hk, by rwa [update_of_ne hdc, update_of_ne hkj]⟩

/-- While some slot is in no cell, some cell is free: the occupied cells name distinct slots. -/
theorem Indexed.exists_free (hj : j < n)
    (hun : Unnamed n index j) : ∃ c < n, (index c).state ≠ .occupied := by
  by_contra hall
  push Not at hall
  have hslot : ∀ c : Fin n, ∃ k : Fin n, (index c).slot = some k.val := fun c => by
    obtain ⟨k, hk, hd⟩ := h.names c c.isLt (hall c c.isLt)
    exact ⟨⟨k, hk⟩, hd.slot⟩
  choose f hf using hslot
  have hinj : Injective f := fun c d hcd => Fin.ext <|
    h.cell_unique c.isLt d.isLt (hall c c.isLt) (hall d d.isLt) (by rw [hf, hf, hcd])
  obtain ⟨c, hc⟩ := Finite.injective_iff_surjective.mp hinj ⟨j, hj⟩
  exact hun c c.isLt (hall c c.isLt) (by rw [hf, hc])

/-- The insertion of a key finds a cell while some slot is in no cell. -/
theorem Indexed.insertCell (hj : j < n) (hun : Unnamed n index j)
    (key : CacheSessionKey) : ∃ c, sessionInsertCell n index key = some c := by
  obtain ⟨c, hc, hfree⟩ := h.exists_free hj hun
  exact Probing.scanInsert_isSome (Nat.mod_lt _ (by omega)) hc hfree

/-- A lookup finds exactly the occupied cell of the key, whatever was erased before. -/
theorem Indexed.find_iff {key : CacheSessionKey} {c : Nat} :
    findSessionCell n index key = some c ↔
      c < n ∧ (index c).state = .occupied ∧ (index c).key = key := by
  by_cases hn : n = 0
  · subst hn
    simp [findSessionCell, Probing.probes, Probing.scan]
  · exact Probing.scan_eq_some_iff h.linked (Nat.pos_of_ne_zero hn)

end

/-- Every binding of the second index is one of the first, with its key and order. -/
def CellsKept (index index' : Nat → SessionIndexEntry) : Prop :=
  ∀ c, (index' c).state = .occupied → (index c).state = .occupied ∧
    (index' c).key = (index c).key ∧ (index' c).publicationOrder = (index c).publicationOrder

theorem CellsKept.refl (index : Nat → SessionIndexEntry) : CellsKept index index :=
  fun _ ho => ⟨ho, rfl, rfl⟩

theorem CellsKept.trans {index' index'' : Nat → SessionIndexEntry} (h : CellsKept index index')
    (h' : CellsKept index' index'') : CellsKept index index'' := by
  intro c ho
  obtain ⟨ho', hk', hp'⟩ := h' c ho
  obtain ⟨ho'', hk, hp⟩ := h c ho'
  exact ⟨ho'', hk'.trans hk, hp'.trans hp⟩

theorem cellsKept_erase (ownerId : UInt64) (index : Nat → SessionIndexEntry) :
    CellsKept index (eraseSessionIfOwner ownerId index) := by
  unfold eraseSessionIfOwner
  split
  · exact .refl index
  · intro c ho
    by_cases hc : (index c).state = .occupied ∧ (index c).ownerId = ownerId
    · simp [hc, erasedCell] at ho
    · simpa [hc] using ho

theorem cellsKept_refresh (m : Nat) (ownerId : UInt64) (slot : Nat) (revision : UInt64)
    (index : Nat → SessionIndexEntry) :
    CellsKept index (refreshSessionOwnerRevision n m ownerId slot revision index) := by
  unfold refreshSessionOwnerRevision
  split
  · exact .refl index
  · split
    · exact .refl index
    · next c _ =>
      intro d ho
      by_cases hdc : d = c
      · subst hdc
        simpa using ho
      · simpa [update_of_ne hdc] using ho

section Bind

variable {key : CacheSessionKey} {c : Nat} {cell : SessionIndexEntry}

/-- A new cell for an owner that no cell names yet. -/
theorem Indexed.bindFree (h : Indexed n catalog index) (hj : j < n)
    (hins : sessionInsertCell n index cell.key = some c) (hfree : (index c).state ≠ .occupied)
    (ho : cell.state = .occupied) (hd : Describes cell j (catalog j)) :
    Indexed n catalog (update index c cell) := by
  have hcell := Probing.scanInsert_some h.linked hins
  rcases hcell with ⟨_, hocc, _⟩ | ⟨_, hclear, habsent⟩
  · exact absurd hocc hfree
  · refine ⟨h.linked.insert ho hclear fun d hd _ => habsent d hd, fun d hdn hdo => ?_⟩
    by_cases hdc : d = c
    · subst hdc
      rw [update_self]
      exact ⟨j, hj, hd⟩
    · rw [update_of_ne hdc] at hdo ⊢
      exact h.names d hdn hdo

/-- The cell of the key moves to an owner that no cell names yet. -/
theorem Indexed.bindOver (h : Indexed n catalog index) (hj : j < n) (hc : c < n)
    (hocc : (index c).state = .occupied) (hkey : (index c).key = cell.key)
    (ho : cell.state = .occupied) (hd : Describes cell j (catalog j)) :
    Indexed n catalog (update index c cell) := by
  have hsame : ∀ d, (update index c cell d).state = (index d).state ∧
      (update index c cell d).key = (index d).key := by
    intro d
    by_cases hdc : d = c
    · subst hdc
      rw [update_self]
      exact ⟨by rw [ho, hocc], hkey.symm⟩
    · simp [update_of_ne hdc]
  refine ⟨h.linked.shrink (fun d _ hd => (hsame d).1 ▸ hd)
    (fun d _ hd => ⟨(hsame d).1 ▸ hd, (hsame d).2⟩), fun d hdn hdo => ?_⟩
  by_cases hdc : d = c
  · subst hdc
    rw [update_self]
    exact ⟨j, hj, hd⟩
  · rw [update_of_ne hdc] at hdo ⊢
    exact h.names d hdn hdo

end Bind

end Indexed

end Ninfer.Resources
