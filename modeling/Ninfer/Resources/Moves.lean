/-
  The moves an owner makes between the catalogue, a transaction and a lane.

  Each lemma is one step of an operation: claiming and giving back, eviction, renewal, consuming
  a source, pinning, reserving a cell for a lane and freeing it. An operation is a list of such
  moves, and its proof chains these lemmas while the holding follows.
-/
import Ninfer.Resources.Tables

namespace Ninfer.Resources

open Lib Function ResourceManager

/-- `p` changed to `v` on `S`. -/
def setOn (S : Nat → Prop) (v : Prop) (p : Nat → Prop) : Nat → Prop :=
  fun k => (S k ∧ v) ∨ (¬ S k ∧ p k)

theorem update_eq_setOn (p : Nat → Prop) (j : Nat) (v : Prop) :
    update p j v = setOn (· = j) v p := by
  funext k
  by_cases hk : k = j <;> simp [setOn, hk]

/-- The private slots a list of claims names. -/
def slotsOf (claims : List OwnerClaim) (k : Nat) : Prop :=
  ∃ c ∈ claims, c.capability.slot = k
  deriving Decidable

theorem slotsOf_cons (c : OwnerClaim) (claims : List OwnerClaim) (k : Nat) :
    slotsOf (c :: claims) k ↔ slotsOf claims k ∨ k = c.capability.slot := by
  simp [slotsOf, or_comm, eq_comm]

theorem setOn_cons (c : OwnerClaim) (claims : List OwnerClaim) (v : Prop) (p : Nat → Prop) :
    setOn (slotsOf claims) v (setOn (· = c.capability.slot) v p) =
      setOn (slotsOf (c :: claims)) v p := by
  funext k
  simp only [setOn, slotsOf, List.mem_cons, exists_eq_or_imp, eq_comm (a := k)]
  by_cases hk : c.capability.slot = k <;> by_cases hl : ∃ d ∈ claims, d.capability.slot = k <;>
    simp [hk, hl]

variable {s : ResourceManager} {H : Holding} {j l : Nat}

/-! ## Private owners -/

section Private

variable {e : CatalogEntry}

theorem PrivateSlot.ofClaimed (h : e.state = .claimed) : PrivateSlot e True False := by
  constructor <;> simp [h]

theorem PrivateSlot.ofVacant (h : e.state = .vacant) (hb : e.Blank) : PrivateSlot e False False :=
  ⟨by simp [h], by simp [h], fun _ => hb, by simp [h], by simp [h]⟩

theorem PrivateSlot.ofCatalogued (h : e.state = .catalogued) (hl : e.Live) :
    PrivateSlot e False False :=
  ⟨by simp [h], by simp [h], by simp [h], fun _ => hl, by simp [h]⟩

section

variable (h : Sound s H)

include h

theorem Sound.no_edge (hst : (s.catalog j).state ≠ .catalogued) :
    s.privateHasActiveEdge j = false := by
  by_contra hedge
  simp only [privateHasActiveEdge, Bool.not_eq_false, List.any_eq_true,
    List.mem_range, decide_eq_true_eq] at hedge
  obtain ⟨l, hl, _, hret⟩ := hedge
  cases ha : (s.active l).retainedPrivateSource with
  | none => simp [ha] at hret
  | some a => exact h.not_retained hst hl a ha (by simpa [ha] using hret)

theorem Sound.not_published (hj : j < s.catalogCount)
    (hst : (s.catalog j).state ≠ .reservedForActive) : ¬ s.Published j :=
  fun hp => hst ((h.priv j hj).reserved.mpr hp)

/-- An entry no lane publishes in or retains becomes another such entry. -/
theorem Sound.replace (hj : j < s.catalogCount)
    (hres : (s.catalog j).state ≠ .reservedForActive) (hedge : s.privateHasActiveEdge j = false)
    {held : Prop} {index : Nat → SessionIndexEntry} (he : PrivateSlot e held False)
    (hindex : Indexed s.catalogCount (update s.catalog j e) index) :
    Sound { s with catalog := update s.catalog j e, sessionIndex := index } { H with
      priv := setOn (· = j) held H.priv } := by
  have hnp := h.not_published hj hres
  rw [← update_eq_setOn]
  refine h.setEntry hj ?_ (fun hp => absurd hp hnp) (fun he => ?_) hindex
  · rwa [eq_false hnp]
  · rw [hedge] at he
    simp at he

/-- An owner is claimed, or a claimed one given back. -/
theorem Sound.setKept (st : CatalogState) (hj : j < s.catalogCount)
    (hkept : (s.catalog j).state.Kept) (hlive : (s.catalog j).Live)
    (hedge : s.privateHasActiveEdge j = false) (hst : st.Kept) :
    Sound (s.setCatalogState j st) { H with priv := setOn (· = j) (st = .claimed) H.priv } := by
  refine h.replace hj ?_ hedge ?_ ?_
  · rcases hkept with h | h <;> simp [h]
  · rcases hst with rfl | rfl
    · have hslot : PrivateSlot { s.catalog j with state := .catalogued } False False :=
        PrivateSlot.ofCatalogued rfl hlive
      simpa using hslot
    · have hslot : PrivateSlot { s.catalog j with state := .claimed } True False :=
        PrivateSlot.ofClaimed rfl
      simpa using hslot
  · exact h.indexed.setEntry fun c hd => hd.keep hst rfl rfl rfl

section

variable (hj : j < s.catalogCount)

include hj

section

variable (hst : (s.catalog j).state = .claimed)

include hst

/-- A claimed publication cell that was never used is vacant again. -/
theorem Sound.vacate (hb : (s.catalog j).Blank) :
    Sound (s.setCatalogState j .vacant) { H with priv := setOn (· = j) False H.priv } := by
  refine h.replace hj (by simp [hst]) (h.no_edge (by simp [hst])) (PrivateSlot.ofVacant rfl hb) ?_
  exact h.indexed.setUnnamed (h.indexed.unnamed_of_no_session hb.2.2)

/-- A claimed owner is evicted. -/
theorem Sound.evict (hid : (s.catalog j).id ≠ 0) :
    Sound ((s.eraseSessions (s.catalog j).id).setEntry j (clearCatalogEntry (s.catalog j))) { H with
      priv := setOn (· = j) False H.priv } :=
  h.replace hj (by simp [hst]) (h.no_edge (by simp [hst]))
    (PrivateSlot.ofVacant rfl ⟨rfl, rfl, rfl⟩) (h.indexed.erase hid)

/-- A claimed owner comes back with a new revision. -/
theorem Sound.renew (hlive : (s.catalog j).Live)
    (hs : e.state = .catalogued) (hid : e.id = (s.catalog j).id)
    (hh : e.handle = (s.catalog j).handle) (hk : e.session = (s.catalog j).session) :
    Sound ((s.refreshSession (s.catalog j).id j e.revision).setEntry j e) { H with
      priv := setOn (· = j) False H.priv } :=
  h.replace hj (by simp [hst]) (h.no_edge (by simp [hst]))
    (PrivateSlot.ofCatalogued hs ⟨hid ▸ hlive.1, hh ▸ hlive.2⟩)
    (h.indexed.refresh hj hlive.1 (.inl hs) hid hk)

end

/-- A claimed source is consumed: it stays claimed until its cell is reserved. -/
theorem Sound.consume
    (hst : (s.catalog j).state = .claimed) (hid : (s.catalog j).id ≠ 0) (keep : Bool) :
    Sound ((s.eraseSessions (s.catalog j).id).setEntry j
      (consumedEntry (s.catalog j) keep)) { H with priv := setOn (· = j) True H.priv } :=
  h.replace hj (by simp [hst]) (h.no_edge (by simp [hst])) (PrivateSlot.ofClaimed hst)
    (h.indexed.erase hid)

/-- An entry changes and stays what it is: the same state, id and handle. -/
theorem Sound.keepSlot (hs : e.state = (s.catalog j).state) (hid : e.id = (s.catalog j).id)
    (hh : e.handle = (s.catalog j).handle)
    (hk : (s.catalog j).state = .vacant → e.session = (s.catalog j).session)
    (hindex : Indexed s.catalogCount (update s.catalog j e) s.sessionIndex) :
    Sound (s.setEntry j e) H := by
  have hslot := h.priv j hj
  have hnew : PrivateSlot e (H.priv j) (s.Published j) :=
    ⟨hs ▸ hslot.claimed, hs ▸ hslot.reserved, fun hv => by
        have hb := hslot.vacant (hs ▸ hv)
        exact ⟨hid ▸ hb.1, hh ▸ hb.2.1, hk (hs ▸ hv) ▸ hb.2.2⟩,
      fun hv => by
        have hb := hslot.catalogued (hs ▸ hv)
        exact ⟨hid ▸ hb.1, hh ▸ hb.2⟩,
      fun hv => by
        have hb := hslot.unfinished (hs ▸ hv)
        exact ⟨hid ▸ hb.1, hh ▸ hb.2⟩⟩
  have hset := h.setEntry hj hnew (fun _ => hid) (fun hedge => ?_) hindex
  · rwa [update_eq_self] at hset
  · refine ⟨?_, hid⟩
    by_contra hne
    rw [h.no_edge (hs ▸ hne)] at hedge
    simp at hedge

end

end

/-- What ownership does not look at changes: summary, observations, retention, stamps. -/
theorem Sound.tune {t : ResourceManager} (h : Sound s H) (hj : j < s.catalogCount)
    (ht : t.tables = (s.setEntry j e).tables) (hs : e.state = (s.catalog j).state)
    (hid : e.id = (s.catalog j).id) (hh : e.handle = (s.catalog j).handle)
    (hk : e.session = (s.catalog j).session)
    (hr : (s.catalog j).state.Kept → e.revision = (s.catalog j).revision) : Sound t H :=
  (h.keepSlot hj hs hid hh (fun _ => hk)
    (h.indexed.setEntry fun _ hd => hd.keep (hs ▸ hd.kept) hid (hr hd.kept) hk)).transfer ht

/-- A catalogued owner that no cell names loses or gets a session. -/
theorem Sound.setSession {t : ResourceManager} (h : Sound s H) (hj : j < s.catalogCount)
    (hst : (s.catalog j).state = .catalogued) (hun : Unnamed s.catalogCount s.sessionIndex j)
    (ht : t.tables = (s.setEntry j e).tables) (hs : e.state = (s.catalog j).state)
    (hid : e.id = (s.catalog j).id) (hh : e.handle = (s.catalog j).handle) : Sound t H :=
  (h.keepSlot hj hs hid hh (by simp [hst]) (h.indexed.setUnnamed hun)).transfer ht

end Private

/-! ## Shared owners -/

section Shared

variable {e : SharedCatalogEntry}

abbrev SharedCatalogState.Kept (st : SharedCatalogState) : Prop := st = .catalogued ∨ st = .claimed

theorem Sound.no_shared_edge (h : Sound s H) (hst : (s.sharedCatalog j).state ≠ .catalogued) :
    s.sharedActiveEdgeCount j = 0 := by
  unfold sharedActiveEdgeCount
  rw [List.sum_eq_zero_iff]
  intro x hx
  obtain ⟨l, hl, rfl⟩ := List.mem_map.mp hx
  split
  · refine List.countP_eq_zero.mpr fun a ha => ?_
    simpa using h.not_shared hst (List.mem_range.mp hl) a ha
  · rfl

variable {captured held pinned : Prop}

/-- A shared entry that no lane has an edge to becomes another. -/
theorem Sound.replaceShared (h : Sound s H) (hj : j < s.sharedCatalogCount)
    (hedge : s.sharedActiveEdgeCount j = 0) (he : SharedSlot e held captured (H.pinned j)) :
    Sound (s.setSharedEntry j e) { H with
      shared := setOn (· = j) held H.shared
      captured := setOn (· = j) captured H.captured } := by
  have hset := h.setShared hj he fun hne => absurd hedge hne
  rwa [update_eq_setOn, update_eq_setOn, update_eq_self] at hset

theorem SharedSlot.setKept (h : SharedSlot e held captured pinned) (st : SharedCatalogState)
    (hlive : e.Live) (hst : st.Kept) :
    SharedSlot { e with state := st } (st = .claimed) False pinned :=
  ⟨.rfl, by rcases hst with rfl | rfl <;> simp, h.pins, h.unpinned,
    by rcases hst with rfl | rfl <;> simp, fun _ => hlive⟩

/-- What ownership does not look at changes: summary, revision, observation, credit. -/
theorem Sound.tuneShared {t : ResourceManager} (h : Sound s H) (hj : j < s.sharedCatalogCount)
    (ht : t.tables = (s.setSharedEntry j e).tables) (hs : e.state = (s.sharedCatalog j).state)
    (hid : e.id = (s.sharedCatalog j).id) (hh : e.handle = (s.sharedCatalog j).handle)
    (hp : e.transactionPins = (s.sharedCatalog j).transactionPins) : Sound t H := by
  have hslot := h.shared j hj
  have hnew : SharedSlot e (H.shared j) (H.captured j) (H.pinned j) :=
    ⟨hs ▸ hslot.claimed, hs ▸ hslot.reserved, hp ▸ hslot.pins, hp ▸ hslot.unpinned, fun hv => by
        have hb := hslot.vacant (hs ▸ hv)
        exact ⟨hid ▸ hb.1, hh ▸ hb.2⟩,
      fun hv => by
        have hb := hslot.catalogued (hs ▸ hv)
        exact ⟨hid ▸ hb.1, hh ▸ hb.2⟩⟩
  have hset := h.setShared hj hnew fun hedge => ?_
  · rw [update_eq_self, update_eq_self, update_eq_self] at hset
    exact hset.transfer ht
  · refine ⟨?_, hid⟩
    by_contra hne
    exact hedge (h.no_shared_edge (hs ▸ hne))

/-- The pins of a slot change to whether it is pinned now. -/
theorem Sound.setPins (h : Sound s H) (hj : j < s.sharedCatalogCount) {pins : Nat}
    (hp : pinned → pins = 1) (hn : ¬ pinned → pins = 0) :
    Sound (s.setSharedEntry j { s.sharedCatalog j with transactionPins := pins }) { H with
      pinned := setOn (· = j) pinned H.pinned } := by
  have hslot := h.shared j hj
  have hnew : SharedSlot { s.sharedCatalog j with transactionPins := pins } (H.shared j)
      (H.captured j) pinned :=
    ⟨hslot.claimed, hslot.reserved, hp, hn, hslot.vacant, hslot.catalogued⟩
  have hset := h.setShared hj hnew fun hedge => ?_
  · rwa [update_eq_self, update_eq_self, update_eq_setOn] at hset
  · refine ⟨?_, rfl⟩
    by_contra hne
    exact hedge (h.no_shared_edge hne)

theorem Sound.unpin (h : Sound s H) (hj : j < s.sharedCatalogCount) :
    Sound (s.unpinShared j) { H with pinned := setOn (· = j) False H.pinned } := by
  refine h.setPins hj False.elim fun _ => ?_
  by_cases hp : H.pinned j
  · rw [(h.shared j hj).pins hp]
  · rw [(h.shared j hj).unpinned hp]

end Shared

/-! ## Lanes -/

section Lanes

variable {a : ActiveEntry}

/-- The edges of a lane change, not where it publishes. -/
theorem Sound.setEdges (h : Sound s H) (ho : a.occupied = (s.active l).occupied)
    (hp : a.publicationSlot = (s.active l).publicationSlot) (hle : LaneEdges s a) :
    Sound (s.setActive l a) H := by
  have hpub : ∀ k i, (s.setActive l a).Publishes k i ↔ s.Publishes k i := by
    intro k i
    by_cases hk : k = l <;> simp [setActive, hk, ho, hp]
  refine ⟨fun i hi => ?_, h.shared, fun k hk => ?_, fun k m i hki hmi => ?_, h.indexed⟩
  · have hpi : (s.setActive l a).Published i = s.Published i :=
      propext (exists_congr fun k => hpub k i)
    rw [hpi]
    exact h.priv i hi
  · by_cases hkl : k = l
    · subst hkl
      simpa [setActive] using ⟨hle.1, hle.2, hle.3, hle.4, hle.5⟩
    · have hkl' := h.lane k hk
      simpa [setActive, update_of_ne hkl] using ⟨hkl'.1, hkl'.2, hkl'.3, hkl'.4, hkl'.5⟩
  · exact h.publisher k m i ((hpub k i).mp hki) ((hpub m i).mp hmi)

variable {e : CatalogEntry}

/-- Edges that were true of the tables stay true when an entry that is not catalogued changes. -/
theorem LaneEdges.setEntry (h : LaneEdges s a) {t : ResourceManager}
    (ht : t.catalog = update s.catalog j e) (hn : t.catalogCount = s.catalogCount)
    (hm : t.sharedCatalogCount = s.sharedCatalogCount) (hs : t.sharedCatalog = s.sharedCatalog)
    (hst : (s.catalog j).state ≠ .catalogued)
    (hpub : a.occupied → a.publicationSlot = some j → e.id = a.continuationId) :
    LaneEdges t a where
  publication ho := by
    obtain ⟨k, hk, hps, hid⟩ := h.publication ho
    refine ⟨k, hn ▸ hk, hps, ?_⟩
    by_cases hkj : k = j
    · subst hkj
      rw [ht, update_self]
      exact hpub ho hps
    · rwa [ht, update_of_ne hkj]
  retained b hb := by
    obtain ⟨hkind, hlt, hbs, hbid⟩ := h.retained b hb
    have hbj : b.slot ≠ j := by
      rintro rfl
      exact hst hbs
    rw [ht, hn, update_of_ne hbj]
    exact ⟨hkind, hlt, hbs, hbid⟩
  shared b hb := by
    rw [hm, hs]
    exact h.shared b hb
  distinct := h.distinct
  idle := h.idle

/-- The lane that publishes in a slot ends, and the entry leaves its reservation. -/
theorem Sound.retire (h : Sound s H) (hp : s.Publishes l j) (he : PrivateSlot e False False) :
    Sound { s with catalog := update s.catalog j e, active := update s.active l {} } H := by
  obtain ⟨hl, ho, hps⟩ := hp
  obtain ⟨i, hi, hpi, _⟩ := (h.lane l hl).publication ho
  obtain rfl : i = j := Option.some.inj (by rw [← hpi, hps])
  have hst : (s.catalog i).state = .reservedForActive := (h.priv i hi).reserved.mpr ⟨l, hl, ho, hps⟩
  set t : ResourceManager := { s with
    catalog := update s.catalog i e
    active := update s.active l {} } with ht
  have hpub : ∀ k m, t.Publishes k m ↔ k ≠ l ∧ s.Publishes k m := by
    intro k m
    by_cases hk : k = l <;> simp [ht, hk]
  refine ⟨fun m hm => ?_, h.shared, fun k hk => ?_, fun k m o hko hmo => ?_, ?_⟩
  · by_cases hmi : m = i
    · subst hmi
      have hheld : ¬ H.priv m := by
        rw [← (h.priv m hm).claimed, hst]
        simp
      have hnone : ¬ t.Published m := by
        rintro ⟨k, hk⟩
        obtain ⟨hkl, hkp⟩ := (hpub k m).mp hk
        exact hkl (h.publisher k l m hkp ⟨hl, ho, hps⟩)
      rw [eq_false hheld, eq_false hnone]
      simpa [ht] using he
    · have hiff : t.Published m ↔ s.Published m := by
        refine exists_congr fun k => (hpub k m).trans ⟨And.right, fun hk => ⟨?_, hk⟩⟩
        rintro rfl
        exact hmi (Option.some.inj (by rw [← hps, hk.2.2]))
      rw [propext hiff]
      simpa [ht, update_of_ne hmi] using h.priv m hm
  · by_cases hkl : k = l
    · subst hkl
      constructor <;> simp [ht]
    · have hedges : LaneEdges t (s.active k) :=
        (h.lane k hk).setEntry rfl rfl rfl rfl (by simp [hst]) fun hok hkp =>
          absurd (h.publisher k l i ⟨hk, hok, hkp⟩ ⟨hl, ho, hps⟩) hkl
      simpa [ht, update_of_ne hkl] using hedges
  · exact h.publisher k m o ((hpub k o).mp hko).2 ((hpub m o).mp hmo).2
  · exact h.indexed.setUnnamed (h.indexed.unnamed_of_not_kept (by simp [hst]))

/-- An idle lane starts to publish in a slot that nothing else uses. -/
theorem Sound.activate (h : Sound s H) (hl : l < s.laneCount)
    (hidle : (s.active l).occupied = false) (hj : j < s.catalogCount)
    (hst : (s.catalog j).state = .vacant ∨ (s.catalog j).state = .claimed)
    (hun : Unnamed s.catalogCount s.sessionIndex j) (hes : e.state = .reservedForActive)
    (heid : e.id ≠ 0) (heh : e.handle = none) (hps : a.publicationSlot = some j)
    (hid : a.continuationId = e.id) (hocc : a.occupied = true)
    (hret : ∀ b ∈ a.retainedPrivateSource, b.owner.kind = .privateContinuation ∧
      b.slot < s.catalogCount ∧ (s.catalog b.slot).state = .catalogued ∧
      (s.catalog b.slot).id = b.owner.id)
    (hsh : ∀ b ∈ a.sharedSources, b.owner.kind = .sharedPrefix ∧
      b.slot < s.sharedCatalogCount ∧ (s.sharedCatalog b.slot).state = .catalogued ∧
      (s.sharedCatalog b.slot).id = b.owner.id) (hnd : (a.sharedSources.map (·.slot)).Nodup) :
    Sound { s with catalog := update s.catalog j e, active := update s.active l a } { H with
      priv := setOn (· = j) False H.priv } := by
  have hnres : (s.catalog j).state ≠ .reservedForActive := by
    rcases hst with h | h <;> simp [h]
  have hncat : (s.catalog j).state ≠ .catalogued := by
    rcases hst with h | h <;> simp [h]
  have hnp := h.not_published hj hnres
  set t : ResourceManager := { s with
    catalog := update s.catalog j e
    active := update s.active l a } with ht
  have hpub : ∀ k m, t.Publishes k m ↔ (k = l ∧ m = j) ∨ (k ≠ l ∧ s.Publishes k m) := by
    intro k m
    by_cases hk : k = l
    · subst hk
      simp only [ht, ResourceManager.Publishes, update_self, hocc, hps, Option.some.injEq, true_and,
        ne_eq, not_true_eq_false, false_and, or_false]
      exact ⟨fun hk => hk.2.symm, fun hk => ⟨hl, hk.symm⟩⟩
    · simp [ht, hk]
  refine ⟨fun m hm => ?_, h.shared, fun k hk => ?_, fun k m o hko hmo => ?_, ?_⟩
  · by_cases hmj : m = j
    · subst hmj
      have hyes : t.Published m := ⟨l, (hpub l m).mpr (.inl ⟨rfl, rfl⟩)⟩
      rw [eq_true hyes]
      have hslot : PrivateSlot e False True :=
        ⟨by simp [hes], by simp [hes], by simp [hes], by simp [hes], fun _ => ⟨heid, heh⟩⟩
      simpa [ht, setOn] using hslot
    · have hiff : t.Published m ↔ s.Published m := by
        refine exists_congr fun k => (hpub k m).trans ⟨?_, fun hk => .inr ⟨?_, hk⟩⟩
        · rintro (⟨_, hm⟩ | hk)
          · exact absurd hm hmj
          · exact hk.2
        · rintro rfl
          exact absurd hk.2.1 (by simp [hidle])
      rw [propext hiff]
      simpa [ht, setOn, hmj, update_of_ne hmj] using h.priv m hm
  · by_cases hkl : k = l
    · subst hkl
      have hedges : LaneEdges t a := by
        refine ⟨fun _ => ⟨j, hj, hps, by simp [ht, hid]⟩, fun b hb => ?_, hsh, hnd, by simp [hocc]⟩
        obtain ⟨hkind, hlt, hbs, hbid⟩ := hret b hb
        have hbj : b.slot ≠ j := by
          rintro rfl
          exact hncat hbs
        simpa [ht, update_of_ne hbj] using ⟨hkind, hlt, hbs, hbid⟩
      simpa [ht] using hedges
    · have hedges : LaneEdges t (s.active k) :=
        (h.lane k hk).setEntry rfl rfl rfl rfl hncat fun hok hkp =>
          absurd ⟨k, hk, hok, hkp⟩ hnp
      simpa [ht, update_of_ne hkl] using hedges
  · rcases (hpub k o).mp hko with ⟨rfl, rfl⟩ | ⟨_, hks⟩
    · rcases (hpub m o).mp hmo with ⟨rfl, _⟩ | ⟨_, hms⟩
      · rfl
      · exact absurd ⟨m, hms⟩ hnp
    · rcases (hpub m o).mp hmo with ⟨rfl, rfl⟩ | ⟨_, hms⟩
      · exact absurd ⟨k, hks⟩ hnp
      · exact h.publisher k m o hks hms
  · exact h.indexed.setUnnamed hun

end Lanes

end Ninfer.Resources
