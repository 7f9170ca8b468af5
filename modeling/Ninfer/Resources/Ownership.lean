/-
  Who owns what, over whole runs.

  `Ownership` reads the invariant off for a client: lanes and reserved entries go together one to
  one, what is claimed is what the open record holds, edges name live owners, and a shared prefix
  is pinned exactly while a record holds it as its source. A record holds its slots until its
  result is adopted; after a published result it stays open, holding nothing, until `adopt` hands
  the lane over.
-/
import Ninfer.Resources.System

namespace Ninfer.Resources

open Lib Function

/-- No entry is claimed or reserved for a capture. -/
def NothingHeld (s : ResourceManager) : Prop :=
  (∀ j < s.catalogCount, (s.catalog j).state ≠ .claimed) ∧
  ∀ j < s.sharedCatalogCount, (s.sharedCatalog j).state ≠ .claimed ∧
    (s.sharedCatalog j).state ≠ .reservedCapture

structure Ownership (s : ResourceManager) : Prop where
  /-- An occupied lane has its reserved entry, by slot and id. -/
  lane : ∀ l < s.laneCount, (s.active l).occupied → ∃ j < s.catalogCount,
    (s.active l).publicationSlot = some j ∧ (s.catalog j).state = .reservedForActive ∧
      (s.catalog j).id = (s.active l).continuationId
  /-- A reserved entry has its lane, and only one. -/
  entry : ∀ j < s.catalogCount, (s.catalog j).state = .reservedForActive →
    ∃ l < s.laneCount, (s.active l).occupied ∧ (s.active l).publicationSlot = some j ∧
      ∀ k < s.laneCount, (s.active k).occupied → (s.active k).publicationSlot = some j → k = l
  claimed : ∀ j < s.catalogCount, (s.catalog j).state = .claimed ↔ s.holding.priv j
  sharedClaimed : ∀ j < s.sharedCatalogCount,
    (s.sharedCatalog j).state = .claimed ↔ s.holding.shared j
  captured : ∀ j < s.sharedCatalogCount,
    (s.sharedCatalog j).state = .reservedCapture ↔ s.holding.captured j
  retained : ∀ l < s.laneCount, ∀ e ∈ (s.active l).retainedPrivateSource,
    e.slot < s.catalogCount ∧ RetainedLive s e
  shared : ∀ l < s.laneCount, ∀ e ∈ (s.active l).sharedSources,
    e.slot < s.sharedCatalogCount ∧ SharedLive s e
  pins : ∀ j < s.sharedCatalogCount, (s.holding.pinned j →
    (s.sharedCatalog j).transactionPins = 1) ∧
    (¬ s.holding.pinned j → (s.sharedCatalog j).transactionPins = 0)

variable {s : ResourceManager} {log : List Nat}

theorem Invariant.ownership (h : Invariant s log) : Ownership s where
  lane l hl ho := by
    obtain ⟨j, hj, hslot, hid⟩ := (h.sound.lane l hl).publication ho
    exact ⟨j, hj, hslot, (h.sound.priv j hj).reserved.mpr ⟨l, hl, ho, hslot⟩, hid⟩
  entry j hj hst := by
    obtain ⟨l, hl, ho, hslot⟩ := (h.sound.priv j hj).reserved.mp hst
    exact ⟨l, hl, ho, hslot, fun k hk hko hks =>
      h.sound.publisher k l j ⟨hk, hko, hks⟩ ⟨hl, ho, hslot⟩⟩
  claimed j hj := (h.sound.priv j hj).claimed
  sharedClaimed j hj := (h.sound.shared j hj).claimed
  captured j hj := (h.sound.shared j hj).reserved
  retained l hl e he := by
    obtain ⟨_, hlt, hst, hid⟩ := (h.sound.lane l hl).retained e he
    exact ⟨hlt, hst, ((h.sound.priv e.slot hlt).catalogued hst).2, hid⟩
  shared l hl e he := by
    obtain ⟨_, hlt, hst, hid⟩ := (h.sound.lane l hl).shared e he
    exact ⟨hlt, hst, ((h.sound.shared e.slot hlt).catalogued hst).2, hid⟩
  pins j hj := ⟨(h.sound.shared j hj).pins, (h.sound.shared j hj).unpinned⟩

theorem Sound.nothingHeld (h : Sound s {}) : NothingHeld s := by
  refine ⟨fun j hj hst => ?_, fun j hj => ⟨fun hst => ?_, fun hst => ?_⟩⟩
  · exact (h.priv j hj).claimed.mp hst
  · exact (h.shared j hj).claimed.mp hst
  · exact (h.shared j hj).reserved.mp hst

namespace ManagerSystem

/-- Ownership holds in every reached state, so lanes can always be released; and no terminal
    outcome of a transaction, nor the absence of one, leaves an entry held. -/
theorem reached_ownership (s : ManagerSystem) (h : Reached s) : Ownership s.rm ∧
    (∀ l < s.rm.laneCount, ∃ t, releaseActiveReferences l s.rm = .ok () t) ∧
    (s.rm.transaction = .none → NothingHeld s.rm) ∧
    ∀ hasBefore hasAfter progress o t,
      progressContextTransaction hasBefore hasAfter progress s.rm = .ok o t →
      o ≠ .inProgress → NothingHeld t := by
  have hinv := (inv_of_reached h).manager
  refine ⟨hinv.ownership, fun l hl => ?_, fun hn => ?_, fun hb ha p o t hp ho => ?_⟩
  · obtain ⟨_, t, ht, _⟩ := wp_returns (wp_releaseActiveReferences hinv.sound hl)
    exact ⟨t, ht⟩
  · exact (hinv.sound_none hn).nothingHeld
  · have hwp := wp_progressContextTransaction (Kept.start hinv) hb ha p
    unfold wp at hwp
    rw [hp] at hwp
    exact (hwp.2 ho).nothingHeld

theorem oneLane_ownership : ∃ s, Reached s ∧ (s.rm.active 0).occupied ∧ Ownership s.rm := by
  have hrun : (trace run May [.inspect rootView {} 1, .reserveMaterialization 0 startsNow,
      .progressContextTransaction true true (.ok (.materialization publishedRoot))]
        (oneLane 1)).map (fun s => (s.rm.active 0).occupied) = some true := by decide +kernel
  obtain ⟨s, hreach, hocc⟩ := Reach.of_trace_map (oneLane_init 1 (by simp)) hrun
  exact ⟨s, hreach, hocc, (reached_ownership s hreach).1⟩

/-- A record is open with nothing claimed once its published result was adopted. And two requests
    of one session with one publication order leave a lane whose entry is catalogued already: the
    second finish throws when it binds the session. -/
theorem ownership_limits : (∃ s r, Reached s ∧ s.rm.transaction = .materialization r ∧
      (s.rm.catalog r.publicationSlot).state = .reservedForActive ∧ NothingHeld s.rm) ∧
    ∃ s, Reach Init run (fun _ _ => True) s ∧ (s.rm.active 0).occupied ∧
      (s.rm.active 0).publicationSlot = some 1 ∧ (s.rm.catalog 1).state = .catalogued := by
  constructor
  · have hrun : (trace run May [.inspect rootView {} 1, .reserveMaterialization 0 startsNow,
        .progressContextTransaction true true (.ok (.materialization publishedRoot))]
          (oneLane 1)).map (fun s => (s.rm.catalogCount, s.rm.sharedCatalogCount,
            s.rm.transaction.opened.map (·.publicationSlot), (s.rm.catalog 0).state)) =
        some (1, 0, some 0, .reservedForActive) := by decide +kernel
    obtain ⟨s, hreach, he⟩ := Reach.of_trace_map (oneLane_init 1 (by simp)) hrun
    simp only [Prod.mk.injEq] at he
    obtain ⟨hn, hm, hrec, hst⟩ := he
    obtain ⟨r, hr, hslot⟩ := Option.map_eq_some_iff.mp hrec
    refine ⟨s, r, hreach, Transaction.opened_eq_some.mp hr, by rw [hslot]; exact hst,
      fun j hj => ?_, fun j hj => ?_⟩
    · obtain rfl : j = 0 := by omega
      simp [hst]
    · omega
  · have hrun : (trace run (fun _ _ => True)
        (wholeRequest (some []) 1 0 ++ wholeRequest (some []) 1 1) (oneLane 2)).map
          (fun s => ((s.rm.active 0).occupied, (s.rm.active 0).publicationSlot,
            (s.rm.catalog 1).state)) = some (true, some 1, .catalogued) := by decide +kernel
    obtain ⟨s, hreach, he⟩ := Reach.of_trace_map (oneLane_init 2 (by simp)) hrun
    simp only [Prod.mk.injEq] at he
    exact ⟨s, hreach, he⟩

/-- A lane goes with its entry and the open record; its order is no other lane's or binding's. -/
theorem reached_lanes (s : ManagerSystem) (h : Reached s) :
    LaneStates s.rm ∧ Orders s.rm s.published := by
  have hinv := (inv_of_reached h).manager
  exact ⟨hinv.lanes, hinv.orders⟩

/-- The second request of a session is running; the binding holds the order of the first. -/
theorem oneLane_lanes : ∃ s : ManagerSystem, s.rm.lanes 0 = .active ∧
    (s.rm.active 0).publicationOrder = 2 ∧ (s.rm.sessionIndex 0).publicationOrder = 1 ∧
    (s.rm.sessionIndex 0).state = .occupied ∧ LaneStates s.rm ∧ Orders s.rm s.published := by
  have hrun : (trace run May
      (wholeRequest (some [7]) 1 0 ++ (wholeRequest (some [7]) 2 1).take 4) (oneLane 2)).map
        (fun s => (s.rm.lanes 0, (s.rm.active 0).publicationOrder,
          (s.rm.sessionIndex 0).publicationOrder, (s.rm.sessionIndex 0).state)) =
      some (.active, 2, 1, .occupied) := by decide +kernel
  obtain ⟨s, hreach, he⟩ := Reach.of_trace_map (oneLane_init 2 (by simp)) hrun
  simp only [Prod.mk.injEq] at he
  obtain ⟨hlane, horder, hcell, hst⟩ := he
  exact ⟨s, hlane, horder, hcell, hst, reached_lanes s hreach⟩

/-- A failed finish changes nothing; one that returns frees its lane and leaves other lanes,
    shared prefixes and the orders of other bindings alone. -/
theorem finish_isolated (s : ManagerSystem) (h : Reached s) (view : FinishView) (lane : Nat) :
    wp (finish view lane) ⟨fun _ t => t.lanes = update s.rm.lanes lane .free ∧
        t.active = update s.rm.active lane {} ∧ t.sharedCatalog = s.rm.sharedCatalog ∧
        CellsFrom s.rm.catalogCount (s.rm.active lane).publicationOrder s.rm.sessionIndex
          t.sessionIndex, fun _ t => t = s.rm, False⟩ s.rm := by
  have hinv := (inv_of_reached h).manager
  refine wp_imp (wp_finish hinv.sound_none fun c hc hco hl ho =>
    (hinv.orders.laneCell lane hl ho c hc hco).symm) fun _ t ht => ?_
  obtain ⟨_, _, _, hf | ⟨j, _, rfl⟩⟩ := ht
  · have hcells := hf.cells
    rw [hf.frame]
    exact ⟨rfl, rfl, rfl, hcells⟩
  · exact ⟨rfl, rfl, rfl, fun _ _ ho => .inl ⟨ho, rfl⟩⟩

theorem oneLane_isolated : ∃ (s : ManagerSystem) (d : FinishDisposition) (t : ResourceManager),
    s.rm.lanes 0 = .terminalPending ∧ finish endsWithOneToken 0 s.rm = .ok d t ∧
    t.lanes = update s.rm.lanes 0 .free ∧ t.active = update s.rm.active 0 {} := by
  have hrun : (trace run May ((wholeRequest none 1 0).take 5) (oneLane 1)).map (fun s =>
      (s.rm.lanes 0, (finish endsWithOneToken 0 s.rm).returned)) =
      some (.terminalPending, true) := by decide +kernel
  obtain ⟨s, hreach, he⟩ := Reach.of_trace_map (oneLane_init 1 (by simp)) hrun
  obtain ⟨hl, hret⟩ := Prod.mk.inj he
  obtain ⟨d, t, ht⟩ := Outcome.returned_iff.mp hret
  have hok := finish_isolated s hreach endsWithOneToken 0
  rw [wp, ht] at hok
  exact ⟨s, d, t, hl, ht, hok.1, hok.2.1⟩

end ManagerSystem

end Ninfer.Resources
