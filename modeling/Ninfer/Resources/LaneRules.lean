/-
  The rules of lanes: how a lane ends, and how its session is bound.

  In sound tables the edges of a lane name live owners, so `releaseActiveReferences` does not
  throw. `publishSession` finds a cell because the slot it publishes is in no cell yet.
-/
import Ninfer.Resources.PlanningRules

namespace Ninfer.Resources

open Lib Function ResourceManager

variable {s t : ResourceManager} {H : Holding} {lane j : Nat}

/-! ## Releasing a lane -/

/-- The lane without its edges. -/
def ResourceManager.dropEdges (s : ResourceManager) (lane : Nat) : ResourceManager :=
  s.setActive lane { s.active lane with retainedPrivateSource := none, sharedSources := [] }

theorem Sound.retainedLive (hs : Sound s H) (hl : lane < s.laneCount) :
    ∀ e ∈ (s.active lane).retainedPrivateSource, RetainedLive s e := by
  intro e he
  obtain ⟨_, hlt, hst, hid⟩ := (hs.lane lane hl).retained e he
  exact ⟨hst, ((hs.priv e.slot hlt).catalogued hst).2, hid⟩

theorem Sound.sharedLive (hs : Sound s H) (hl : lane < s.laneCount) :
    ∀ e ∈ (s.active lane).sharedSources, SharedLive s e := by
  intro e he
  obtain ⟨_, hlt, hst, hid⟩ := (hs.lane lane hl).shared e he
  exact ⟨hst, ((hs.shared e.slot hlt).catalogued hst).2, hid⟩

/-- Edges with distinct slots are distinct. -/
theorem LaneEdges.not_mem_take {a : ActiveEntry} (h : LaneEdges s a) {e : ActiveOwnerEdge}
    {i : Nat} (hi : (e, i) ∈ a.sharedSources.zipIdx) : e ∉ a.sharedSources.take i := by
  have hnd : a.sharedSources.Nodup := List.Nodup.of_map _ h.distinct
  obtain ⟨hlt, rfl⟩ := List.getElem?_eq_some_iff.mp (List.mk_mem_zipIdx_iff_getElem?.mp hi)
  intro hmem
  obtain ⟨k, hk, heq⟩ := List.mem_take_iff_getElem.mp hmem
  have := hnd.getElem_inj_iff.mp heq
  omega

theorem wp_releaseActiveReferences (hs : Sound s H) (hl : lane < s.laneCount) :
    wp (releaseActiveReferences lane)
      ⟨fun _ t => t = s.dropEdges lane, fun _ _ => False, False⟩ s := by
  have hle := hs.lane lane hl
  unfold releaseActiveReferences
  simp only [wp_bind, wp_get, wp_require]
  refine ⟨fun hn => hn fun e he => ⟨(hle.retained e he).1, (hle.retained e he).2.1⟩, fun _ =>
    ⟨fun hn => hn (hs.retainedLive hl), fun _ => ?_⟩⟩
  refine wp_imp (wp_forEach_same fun p hp => ?_) (fun _ u hu => hu ▸ rfl)
  obtain ⟨e, i⟩ := p
  have hmem : e ∈ (s.active lane).sharedSources :=
    List.mem_of_getElem? (List.mk_mem_zipIdx_iff_getElem?.mp hp)
  simp only [wp_bind, wp_require]
  refine ⟨fun hn => hn ⟨(hle.shared e hmem).1, (hle.shared e hmem).2.1, hle.not_mem_take hp⟩,
    fun _ => ⟨fun hn => hn (hs.sharedLive hl e hmem), fun _ => trivial⟩⟩

theorem wp_releaseLane (hs : Sound s H) (hl : lane < s.laneCount) (ho : (s.active lane).occupied) :
    wp (releaseLane lane)
      ⟨fun _ t => ∃ j, s.Publishes lane j ∧ t = s.freeLane lane j, fun _ _ => False, False⟩ s := by
  obtain ⟨j, hj, hps, _⟩ := (hs.lane lane hl).publication ho
  refine wp_seq (wp_releaseActiveReferences hs hl) fun _ t ht => ?_
  subst ht
  have hslot : ((s.dropEdges lane).active lane).publicationSlot = some j := by
    simpa [dropEdges, setActive] using hps
  simp only [wp_bind, wp_get, catalogAt, hslot, wp_require, wp_pure, wp_modify]
  refine ⟨fun hn => hn hj, fun _ => ⟨j, ⟨hl, ho, hps⟩, ?_⟩⟩
  simp [freeLane, dropEdges, setActive, setEntry, setLane]

theorem Sound.freeLane (hs : Sound s H) (hp : s.Publishes lane j) : Sound (s.freeLane lane j) H :=
  (hs.retire hp (PrivateSlot.ofVacant rfl ⟨rfl, rfl, rfl⟩)).transfer rfl

/-! ## Binding a session -/

/-- Only the index may differ. -/
theorem Sound.setIndex (hs : Sound s H) {index : Nat → SessionIndexEntry}
    (hi : Indexed s.catalogCount s.catalog index) : Sound { s with sessionIndex := index } H := by
  refine ⟨hs.priv, hs.shared, fun l hl => ?_, hs.publisher, hi⟩
  obtain ⟨g1, g2, g3, g4, g5⟩ := hs.lane l hl
  exact ⟨g1, g2, g3, g4, g5⟩

/-- What binding a session to a slot changes: one cell, and the owner it named before. -/
structure SessionBound (s t : ResourceManager) (key : CacheSessionKey) (slot order : Nat) :
    Prop where
  frame : t = { s with catalog := t.catalog, sessionIndex := t.sessionIndex }
  slot : t.catalog slot = s.catalog slot
  cells : ∀ c < s.catalogCount, (t.sessionIndex c).state = .occupied →
    t.sessionIndex c = s.sessionIndex c ∨
    ((t.sessionIndex c).key = key ∧ (t.sessionIndex c).publicationOrder = order)
  older : ∀ c < s.catalogCount, (s.sessionIndex c).state = .occupied →
    (s.sessionIndex c).key = key → (s.sessionIndex c).publicationOrder < order ∧
      (t.sessionIndex c).key = key ∧ (t.sessionIndex c).publicationOrder = order

section Publish

variable {key : CacheSessionKey} {id revision : UInt64} {order : Nat} {a : Nat → ActiveEntry}

/-- A newer publication holds the key. -/
def HeldByNewer (s : ResourceManager) (key : CacheSessionKey) (order : Nat) : Prop :=
  ∃ c < s.catalogCount, (s.sessionIndex c).state = .occupied ∧ (s.sessionIndex c).key = key ∧
    order < (s.sessionIndex c).publicationOrder

/-- The slot to publish is catalogued, has the key, and is in no cell. -/
structure Publishable (s : ResourceManager) (key : CacheSessionKey) (slot : Nat)
    (id revision : UInt64) (order : Nat) : Prop where
  lt : slot < s.catalogCount
  state : (s.catalog slot).state = .catalogued
  id : (s.catalog slot).id = id
  revision : (s.catalog slot).revision = revision
  session : (s.catalog slot).session = some key
  unnamed : Unnamed s.catalogCount s.sessionIndex slot
  fresh : ∀ c < s.catalogCount, (s.sessionIndex c).state = .occupied →
    (s.sessionIndex c).publicationOrder ≠ order

theorem Publishable.describes (h : Publishable s key j id revision order) :
    Describes (boundCell key j id revision order) j (s.catalog j) :=
  ⟨rfl, .inl h.state, h.id.symm, h.revision.symm, h.session⟩

/-- The owner a cell named before is in no cell once the cell names another slot. -/
theorem Indexed.unnamed_rebound {n c i : Nat} {catalog : Nat → CatalogEntry}
    {index : Nat → SessionIndexEntry} (h : Indexed n catalog index) (hc : c < n)
    (ho : (index c).state = .occupied) (hslot : (index c).slot = some i)
    {cell : SessionIndexEntry} (hcell : cell.slot ≠ some i) :
    Unnamed n (update index c cell) i := by
  intro d hd hdo hds
  by_cases hdc : d = c
  · subst hdc
    rw [update_self] at hds
    exact hcell hds
  · rw [update_of_ne hdc] at hdo hds
    exact hdc (h.cell_unique hd hc hdo ho (hds.trans hslot.symm))

/-- The demotion of the owner of a replaced cell. -/
theorem Sound.demote {i : Nat} {prior : SessionIndexEntry} (hs : Sound { s with active := a } H)
    (id : UInt64)
    (hslot : prior.slot = some i) (hun : Unnamed s.catalogCount s.sessionIndex i) (hij : i ≠ j) :
    Sound { s.demoteReplacedSession prior j id with active := a } H ∧
      (s.demoteReplacedSession prior j id).sessionIndex = s.sessionIndex ∧
      (s.demoteReplacedSession prior j id).catalog j = s.catalog j ∧
      s.demoteReplacedSession prior j id = { s with
        catalog := (s.demoteReplacedSession prior j id).catalog
        sessionIndex := (s.demoteReplacedSession prior j id).sessionIndex } := by
  unfold demoteReplacedSession
  rw [hslot]
  dsimp only
  split
  · next hcond =>
    obtain ⟨hlt, _, hst, _⟩ := hcond
    refine ⟨hs.setSession hlt hst hun rfl rfl rfl rfl, rfl, ?_, rfl⟩
    simp [ResourceManager.setEntry, update_of_ne hij.symm]
  · exact ⟨hs, rfl, rfl, rfl⟩

theorem wp_publishSession (hs : Sound { s with active := a } H)
    (hp : Publishable s key j id revision order) :
    wp (publishSession key j id revision order)
      ⟨fun b t => if b then SessionBound s t key j order ∧ Sound { t with active := a } H
        else t = s ∧ HeldByNewer s key order, fun _ _ => False, False⟩ s := by
  have hn : s.catalogCount ≠ 0 := by
    have := hp.lt
    omega
  have hix : Indexed s.catalogCount s.catalog s.sessionIndex := hs.indexed
  obtain ⟨c, hins⟩ := hix.insertCell hp.lt hp.unnamed key
  unfold publishSession
  simp only [wp_bind, wp_get, wp_require, hins]
  refine ⟨fun h => h hn, fun _ => ?_⟩
  rcases Probing.scanInsert_some hix.linked hins with ⟨hc, ho, hk⟩ | ⟨hfree, hclear, habsent⟩
  · -- the key is bound
    simp only [ho, ne_eq, not_true_eq_false, if_false, wp_ite]
    refine ⟨fun hnew => ⟨rfl, c, hc, ho, hk, hnew⟩, fun hle => ⟨fun heq => ?_, fun hne => ?_⟩⟩
    · exact absurd heq (hp.fresh c hc ho)
    · have hlt : (s.sessionIndex c).publicationOrder < order := by omega
      obtain ⟨i, hi, hd⟩ := hix.names c hc ho
      have hslot : (s.sessionIndex c).slot ≠ some j := hp.unnamed c hc ho
      have hij : i ≠ j := by
        rintro rfl
        exact hslot hd.slot
      have hbound : Indexed s.catalogCount s.catalog
          (update s.sessionIndex c (boundCell key j id revision order)) :=
        hix.bindOver hp.lt hc ho hk rfl hp.describes
      have hset : Sound { s.setCell c (boundCell key j id revision order) with active := a } H :=
        (hs.setIndex hbound).transfer rfl
      have hun : Unnamed s.catalogCount
          (s.setCell c (boundCell key j id revision order)).sessionIndex
          i := hix.unnamed_rebound hc ho hd.slot fun h => hij (Option.some.inj h).symm
      obtain ⟨hsound, hindex, hcat, hframe⟩ := hset.demote id hd.slot hun hij
      simp only [wp_bind, wp_modify, wp_when]
      refine ⟨fun _ => ⟨⟨?_, hcat, fun d hdn hdo => ?_, fun d hdn hdo hdk => ?_⟩, hsound⟩,
        fun h => absurd (.inl hslot) h⟩
      · rw [hframe]
        rfl
      · rw [hindex]
        by_cases hdc : d = c <;> simp [setCell, boundCell, hdc]
      · obtain rfl : d = c := hix.linked.unique d hdn c hc hdo ho (hdk.trans hk.symm)
        rw [hindex]
        refine ⟨hlt, ?_⟩
        simp [setCell, boundCell]
  · -- the key is in no cell
    have hc : c < s.catalogCount := hclear.lt
    simp only [ne_eq, hfree, not_false_eq_true, if_true, wp_bind, wp_modify, wp_pure]
    have hbound : Indexed s.catalogCount s.catalog
        (update s.sessionIndex c (boundCell key j id revision order)) :=
      hix.bindFree hp.lt hins hfree rfl hp.describes
    refine ⟨⟨rfl, rfl, fun d hdn hdo => ?_, fun d hdn hdo hdk =>
      absurd hdk (habsent d hdn hdo)⟩, ?_⟩
    · by_cases hdc : d = c <;> simp [setCell, boundCell, hdc]
    · exact (hs.setIndex hbound).transfer rfl

end Publish

/-! ## Finishing a lane -/

/-- While a key stays bound its publication order does not decrease. -/
def OrdersGrow (n : Nat) (index index' : Nat → SessionIndexEntry) : Prop :=
  ∀ c < n, ∀ d < n, (index c).state = .occupied → (index' d).state = .occupied →
    (index c).key = (index' d).key → (index c).publicationOrder ≤ (index' d).publicationOrder

/-- The cells of the second index are of the first or have the given order. -/
def CellsFrom (n order : Nat) (index index' : Nat → SessionIndexEntry) : Prop :=
  ∀ c < n, (index' c).state = .occupied →
    ((index c).state = .occupied ∧ (index' c).publicationOrder = (index c).publicationOrder) ∨
    (index' c).publicationOrder = order

theorem CellsKept.grow {n : Nat} {catalog : Nat → CatalogEntry}
    {index index' : Nat → SessionIndexEntry} (h : CellsKept index index')
    (hi : Indexed n catalog index) : OrdersGrow n index index' := by
  intro c hc d hd hco hdo hkey
  obtain ⟨hdo', hk, hp⟩ := h d hdo
  obtain rfl := hi.linked.unique c hc d hd hco hdo' (hkey.trans hk)
  exact hp.symm.le

theorem SessionBound.grow {key : CacheSessionKey} {order : Nat} (h : SessionBound s t key j order)
    (hi : Indexed s.catalogCount s.catalog s.sessionIndex) :
    OrdersGrow s.catalogCount s.sessionIndex t.sessionIndex := by
  intro c hc d hd hco hdo hkey
  rcases h.cells d hd hdo with hsame | ⟨hk, hp⟩
  · rw [hsame] at hdo hkey ⊢
    obtain rfl := hi.linked.unique c hc d hd hco hdo hkey
    exact le_rfl
  · rw [hp]
    exact (h.older c hc hco (hkey.trans hk)).1.le

theorem SessionBound.from {key : CacheSessionKey} {order : Nat} (h : SessionBound s t key j order) :
    CellsFrom s.catalogCount order s.sessionIndex t.sessionIndex := by
  intro c hc ho
  rcases h.cells c hc ho with hsame | ⟨_, hp⟩
  · exact .inl ⟨hsame ▸ ho, by rw [hsame]⟩
  · exact .inr hp

/-- The lane ended with its continuation catalogued. -/
structure Finished (s t : ResourceManager) (lane : Nat) : Prop where
  frame : t = { s with
    catalog := t.catalog
    sessionIndex := t.sessionIndex
    publicationEpoch := t.publicationEpoch
    active := update s.active lane {}
    lanes := update s.lanes lane .free }
  grow : OrdersGrow s.catalogCount s.sessionIndex t.sessionIndex
  cells : CellsFrom s.catalogCount (s.active lane).publicationOrder s.sessionIndex t.sessionIndex
  newer : ∀ key, (s.active lane).session = some key →
    HeldByNewer s key (s.active lane).publicationOrder → t.sessionIndex = s.sessionIndex
  sound : Sound t {}

/-- The entry `publishContinuation` writes. -/
def continuationEntry (s : ResourceManager) (lane slot : Nat) (summary : ContinuationSummary)
    (handle : Nat) : CatalogEntry :=
  { renewed (s.catalog slot) summary (s.active lane).retention with
    state := .catalogued
    publishedEpoch := s.publicationEpoch + 1
    handle := some handle
    session := (s.active lane).session
    retention := (s.active lane).retention }

/-- The continuation is in its slot and its session is bound, refused or left alone. -/
structure ContinuationPublished (s t : ResourceManager) (lane : Nat) : Prop where
  frame : t = { s with
    catalog := t.catalog
    sessionIndex := t.sessionIndex
    publicationEpoch := t.publicationEpoch }
  grow : OrdersGrow s.catalogCount s.sessionIndex t.sessionIndex
  cells : CellsFrom s.catalogCount (s.active lane).publicationOrder s.sessionIndex t.sessionIndex
  newer : ∀ key, (s.active lane).session = some key →
    HeldByNewer s key (s.active lane).publicationOrder → t.sessionIndex = s.sessionIndex
  sound : Sound { t with active := update s.active lane {} } {}

theorem wp_publishContinuation {summary : ContinuationSummary} {handle : Nat}
    (hs : Sound s {}) (hp : s.Publishes lane j)
    (hv : validContinuationSummary s.maxLongAnchors summary)
    (hfresh : ∀ c < s.catalogCount, (s.sessionIndex c).state = .occupied →
      (s.sessionIndex c).publicationOrder ≠ (s.active lane).publicationOrder) :
    wp (publishContinuation lane j summary handle)
      ⟨fun _ t => ContinuationPublished s t lane, fun _ _ => False, False⟩ s := by
  obtain ⟨hl, ho, hps⟩ := hp
  obtain ⟨i, hi, hpi, _⟩ := (hs.lane lane hl).publication ho
  obtain rfl := Option.mem_unique hpi hps
  have hslot := hs.priv i hi
  have hres : (s.catalog i).state = .reservedForActive := hslot.reserved.mpr ⟨lane, hl, ho, hps⟩
  have hun : Unnamed s.catalogCount s.sessionIndex i :=
    hs.indexed.unnamed_of_not_kept (by simp [hres])
  have hkept : CellsKept s.sessionIndex s.sessionIndex := .refl _
  have hsame : CellsFrom s.catalogCount (s.active lane).publicationOrder s.sessionIndex
      s.sessionIndex := fun c _ hco => .inl ⟨hco, rfl⟩
  have hentry : PrivateSlot (continuationEntry s lane i summary handle) False False :=
    PrivateSlot.ofCatalogued rfl ⟨(hslot.unfinished hres).1, rfl⟩
  -- the tables with the continuation in its slot and the lane gone
  have hret : Sound { s.setEntry i (continuationEntry s lane i summary handle) with
      publicationEpoch := s.publicationEpoch + 1
      active := update s.active lane {} } {} :=
    (hs.retire ⟨hl, ho, hps⟩ hentry).transfer rfl
  unfold publishContinuation
  simp only [wp_bind, wp_get]
  refine (wp_renewEntry hv).mpr ?_
  cases hsess : (s.active lane).session with
  | none =>
    simp only [continuationEntry, hsess] at hret
    exact ⟨rfl, hkept.grow hs.indexed, hsame, fun _ _ _ => rfl, hret⟩
  | some key =>
    simp only [wp_ite]
    have hpub : Publishable ({ s.setEntry i (continuationEntry s lane i summary handle) with
        publicationEpoch := s.publicationEpoch + 1 }) key i
        (renewed (s.catalog i) summary (s.active lane).retention).id
        (renewed (s.catalog i) summary (s.active lane).retention).revision
        (s.active lane).publicationOrder := by
      refine ⟨hi, ?_, ?_, ?_, ?_, hun, hfresh⟩ <;> simp [setEntry, continuationEntry, hsess]
    simp only [continuationEntry, hsess] at hpub hret
    refine ⟨fun _ => wp_seq (wp_publishSession (a := update s.active lane {}) hret hpub)
      fun b t ht => ?_, fun _ => ⟨rfl, hkept.grow hs.indexed, hsame, fun _ _ _ => rfl, hret⟩⟩
    cases b with
    | true =>
      obtain ⟨hbound, hsound⟩ := ht
      simp only [wp_when, Bool.true_eq_false, false_implies, not_false_eq_true, true_implies,
        true_and]
      refine ⟨?_, hbound.grow hret.indexed, hbound.from, fun key' hkey' hnew => ?_, hsound⟩
      · rw [hbound.frame]
        rfl
      · obtain rfl := Option.mem_unique hsess hkey'
        obtain ⟨c, hc, hco, hck, hlt⟩ := hnew
        exact absurd ((hbound.older c hc hco hck).1.trans hlt) (lt_irrefl _)
    | false =>
      obtain ⟨rfl, _⟩ := ht
      refine ⟨rfl, hkept.grow hs.indexed, hsame, fun _ _ _ => rfl, ?_⟩
      exact hret.setSession (j := i) hi (by simp [setEntry]) hun rfl rfl rfl rfl

theorem Sound.dropEdges (hs : Sound s H) (hl : lane < s.laneCount) :
    Sound (s.dropEdges lane) H := by
  refine hs.setEdges rfl rfl ?_
  obtain ⟨g1, _, _, _, _⟩ := hs.lane lane hl
  exact ⟨g1, by simp, by simp, by simp, fun _ => ⟨rfl, rfl⟩⟩

theorem checks_requireLane (lane : Nat) (expected : LogicalLaneState) :
    Checks (requireLane lane expected) s fun _ => lane < s.laneCount ∧ s.lanes lane = expected ∧
      (expected = .active ∨ expected = .terminalPending → (s.active lane).occupied) := by
  exact .get_bind .require

theorem wp_finishCatalogued {result : FinishResult} (hs : Sound s {}) (hl : lane < s.laneCount)
    (ho : (s.active lane).occupied)
    (hfresh : ∀ c < s.catalogCount, (s.sessionIndex c).state = .occupied →
      (s.sessionIndex c).publicationOrder ≠ (s.active lane).publicationOrder) :
    wp (finishCatalogued lane result)
      ⟨fun _ t => Finished s t lane, fun _ t => t = s, False⟩ s := by
  refine (checks_catalogAt _).wp_bind (fun _ => rfl) fun j hj => ?_
  refine Checks.require.wp_bind (fun _ => rfl) fun _ hres => ?_
  obtain ⟨_, hcont, hv, _, _⟩ := hres
  refine wp_seq (wp_releaseActiveReferences hs hl) fun _ t ht => ?_
  subst ht
  obtain ⟨handle, hhandle⟩ := Option.isSome_iff_exists.mp hcont
  simp only [wp_bind, wp_deref, hhandle, Option.some.injEq, forall_eq', reduceCtorEq,
    false_implies, and_true, wp_modify]
  have hactive : (s.dropEdges lane).active lane = { s.active lane with
      retainedPrivateSource := none
      sharedSources := [] } := by
    simp [dropEdges, setActive]
  have hpub : (s.dropEdges lane).Publishes lane j := by
    refine ⟨hl, ?_, ?_⟩ <;> rw [hactive]
    · exact ho
    · exact hj.1
  have hidem : update (s.dropEdges lane).active lane {} = update s.active lane {} := by
    simp [dropEdges, setActive]
  refine wp_mono (wp_publishContinuation (hs.dropEdges hl) hpub hv (by rw [hactive]; exact hfresh))
    (fun _ t ht => ?_) (fun _ _ hf => hf.elim) id
  obtain ⟨hframe, hgrow, hcells, hnewer, hsound⟩ := ht
  rw [hactive] at hcells hnewer
  cases t
  cases hframe
  refine ⟨?_, hgrow, hcells, hnewer, hsound.transfer rfl⟩
  unfold setLane setActive
  rw [hidem]
  rfl

/-- A finish publishes the continuation or frees the lane; when it throws, nothing changed. -/
theorem wp_finish {view : FinishView} (hs : s.transaction = .none → Sound s {})
    (hfresh : ∀ c < s.catalogCount, (s.sessionIndex c).state = .occupied →
      lane < s.laneCount → (s.active lane).occupied →
      (s.sessionIndex c).publicationOrder ≠ (s.active lane).publicationOrder) :
    wp (finish view lane)
      ⟨fun _ t => s.transaction = .none ∧ lane < s.laneCount ∧ s.lanes lane = .terminalPending ∧
        (Finished s t lane ∨ ∃ j, s.Publishes lane j ∧ t = s.freeLane lane j),
        fun _ t => t = s, False⟩ s := by
  refine (checks_requireLane _ _).wp_bind (fun _ => rfl) fun _ hlane => ?_
  obtain ⟨hl, hterm, hocc⟩ := hlane
  have ho := hocc (Or.inr rfl)
  refine Checks.require.wp_bind (fun _ => rfl) fun _ hnone => ?_
  have hsound := hs hnone.1
  have hrelease : wp (do releaseLane lane; pure FinishDisposition.released)
      ⟨fun _ t => s.transaction = .none ∧ lane < s.laneCount ∧ s.lanes lane = .terminalPending ∧
        (Finished s t lane ∨ ∃ j, s.Publishes lane j ∧ t = s.freeLane lane j),
        fun _ t => t = s, False⟩ s :=
    wp_seq (wp_releaseLane hsound hl ho) fun _ t ht => ⟨hnone.1, hl, hterm, Or.inr ht⟩
  refine (Checks.answer _).wp_bind (fun _ => rfl) fun result _ => ?_
  rw [wp_ite]
  refine ⟨fun _ => ?_, fun _ => ?_⟩
  · refine (Checks.answer _).wp_bind (fun _ => rfl) fun discarded _ => ?_
    exact Checks.require.wp_bind (fun _ => rfl) fun _ _ => hrelease
  · refine (checks_catalogAt _).wp_bind (fun _ => rfl) fun _ _ => ?_
    rw [wp_ite]
    refine ⟨fun _ => Checks.require.wp_bind (fun _ => rfl) fun _ _ => hrelease, fun _ => ?_⟩
    rw [wp_bind]
    refine wp_imp (wp_finishCatalogued hsound hl ho fun c hc hco => hfresh c hc hco hl ho)
      (fun _ t ht => ⟨hnone.1, hl, hterm, Or.inl ht⟩)

end Ninfer.Resources
