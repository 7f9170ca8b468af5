/-
  What each operation of the manager keeps.

  One lemma for each operation: it leaves `Invariant`, whether it returns or throws. Only the
  adoption of a published result adds to the publication orders.
-/
import Ninfer.Lib.Reach
import Ninfer.Resources.LaneRules

namespace Ninfer.Resources

open Lib Function ResourceManager

variable {s t : ResourceManager} {log : List Nat} {lane j : Nat}

/-- Every binding is one of an earlier state. -/
def BindingsKept (o s : ResourceManager) : Prop :=
  s.catalogCount = o.catalogCount ∧ CellsKept o.sessionIndex s.sessionIndex

/-- The invariant holds, and every binding is one of an earlier state. -/
structure Kept (o : ResourceManager) (log : List Nat) (s : ResourceManager) : Prop where
  inv : Invariant s log
  cells : BindingsKept o s

theorem BindingsKept.trans {o s t : ResourceManager} (h : BindingsKept o s)
    (hn : t.catalogCount = s.catalogCount) (hc : CellsKept s.sessionIndex t.sessionIndex) :
    BindingsKept o t :=
  ⟨hn.trans h.1, h.2.trans hc⟩

theorem Kept.start (h : Invariant s log) : Kept s log s := ⟨h, rfl, .refl _⟩

variable {o : ResourceManager}

/-! ## Reading the invariant -/

theorem Invariant.sound_none (h : Invariant s log) (hn : s.transaction = .none) : Sound s {} := by
  have := h.sound
  unfold holding at this
  rwa [hn] at this

variable {r : MaterializationRecord}

theorem holding_pending (ht : s.transaction = .materialization r)
    (ho : (s.active r.destination).occupied = false) : s.holding = r.holding := by
  unfold holding
  rw [ht]
  simp [ho]

theorem holding_started (ht : s.transaction = .materialization r)
    (ho : (s.active r.destination).occupied = true) : s.holding = {} := by
  unfold holding
  rw [ht]
  simp [ho]

theorem Invariant.pending (h : Invariant s log) (ht : s.transaction = .materialization r)
    (ho : (s.active r.destination).occupied = false) : Sound s r.holding ∧ PendingOk s r := by
  refine ⟨?_, ?_⟩
  · exact holding_pending ht ho ▸ h.sound
  · have := h.record
    unfold RecordOk at this
    rw [ht] at this
    exact this ho

theorem Invariant.capture (h : Invariant s log) {r : ActiveCaptureRecord}
    (ht : s.transaction = .activeCapture r) : Sound s r.holding ∧ CaptureOk s r := by
  refine ⟨?_, ?_⟩
  · have := h.sound
    unfold holding at this
    rwa [ht] at this
  · have := h.record
    unfold RecordOk at this
    rwa [ht] at this

/-- Between transactions the invariant is soundness, lanes and orders. -/
theorem Invariant.of_none (hsize : 0 < s.catalogCount) (hn : s.transaction = .none)
    (hs : Sound s {}) (hl : LaneStates s) (ho : Orders s log) : Invariant s log := by
  refine ⟨hsize, ?_, ?_, hl, ho⟩
  · unfold holding
    rwa [hn]
  · unfold RecordOk
    rw [hn]
    trivial

theorem Invariant.of_pending (hsize : 0 < s.catalogCount)
    (ht : s.transaction = .materialization r) (ho : (s.active r.destination).occupied = false)
    (hs : Sound s r.holding) (hp : PendingOk s r) (hl : LaneStates s) (hord : Orders s log) :
    Invariant s log := by
  refine ⟨hsize, ?_, ?_, hl, hord⟩
  · rwa [holding_pending ht ho]
  · unfold RecordOk
    rw [ht]
    exact fun _ => hp

theorem Invariant.of_capture {r : ActiveCaptureRecord} (hsize : 0 < s.catalogCount)
    (ht : s.transaction = .activeCapture r) (hs : Sound s r.holding) (hp : CaptureOk s r)
    (hl : LaneStates s) (hord : Orders s log) : Invariant s log := by
  refine ⟨hsize, ?_, ?_, hl, hord⟩
  · unfold holding
    rwa [ht]
  · unfold RecordOk
    rwa [ht]

/-- No lane takes an order up; a cell may take the order of a lane that gave it up. -/
theorem Orders.handOver (h : Orders s log) (hrec : ∀ r, t.transaction = .materialization r →
      (t.active r.destination).occupied = false → r.publicationOrder ∉ log)
    (hact : ∀ l, (t.active l).occupied → (s.active l).occupied ∧
      (t.active l).publicationOrder = (s.active l).publicationOrder)
    (hcells : ∀ c < s.catalogCount, (t.sessionIndex c).state = .occupied →
      ((s.sessionIndex c).state = .occupied ∧
        (t.sessionIndex c).publicationOrder = (s.sessionIndex c).publicationOrder) ∨
      ∃ k < s.laneCount, (s.active k).occupied ∧ (t.active k).occupied = false ∧
        (t.sessionIndex c).publicationOrder = (s.active k).publicationOrder)
    (hn : t.catalogCount = s.catalogCount) (hl : t.laneCount = s.laneCount) : Orders t log where
  cell c hc ho := by
    rcases hcells c (hn ▸ hc) ho with ⟨ho', hp⟩ | ⟨k, hk, hko, _, hp⟩
    · exact hp ▸ h.cell c (hn ▸ hc) ho'
    · exact hp ▸ h.lane k hk hko
  lane l hlt ho := by
    obtain ⟨ho', hp⟩ := hact l ho
    exact hp ▸ h.lane l (hl ▸ hlt) ho'
  laneCell l hlt ho c hc hco := by
    obtain ⟨ho', hp⟩ := hact l ho
    rw [hp]
    rcases hcells c (hn ▸ hc) hco with ⟨hco', hcp⟩ | ⟨k, hk, hko, hgone, hcp⟩
    · exact hcp ▸ h.laneCell l (hl ▸ hlt) ho' c (hn ▸ hc) hco'
    · rw [hcp]
      intro heq
      obtain rfl := h.laneLane l (hl ▸ hlt) k hk ho' hko heq
      simp [ho] at hgone
  laneLane l hlt k hk ho hko heq := by
    obtain ⟨ho', hp⟩ := hact l ho
    obtain ⟨hko', hkp⟩ := hact k hko
    rw [hp, hkp] at heq
    exact h.laneLane l (hl ▸ hlt) k (hl ▸ hk) ho' hko' heq
  record := hrec

/-- Orders read the index, the lanes and a record that is not adopted. -/
theorem Orders.transfer (h : Orders s log) (hrec : ∀ r, t.transaction = .materialization r →
      (t.active r.destination).occupied = false → r.publicationOrder ∉ log)
    (hact : ∀ l, (t.active l).occupied → (s.active l).occupied ∧
      (t.active l).publicationOrder = (s.active l).publicationOrder)
    (hcells : CellsKept s.sessionIndex t.sessionIndex) (hn : t.catalogCount = s.catalogCount)
    (hl : t.laneCount = s.laneCount) : Orders t log :=
  h.handOver hrec hact (fun c _ ho => .inl ⟨(hcells c ho).1, (hcells c ho).2.2⟩) hn hl

/-- Only the record may have changed. -/
theorem Orders.keep (h : Orders s log) (hrec : ∀ r, t.transaction = .materialization r →
      (t.active r.destination).occupied = false → r.publicationOrder ∉ log)
    (hsame : (t.active, t.sessionIndex, t.catalogCount, t.laneCount) =
      (s.active, s.sessionIndex, s.catalogCount, s.laneCount)) : Orders t log := by
  simp only [Prod.mk.injEq] at hsame
  obtain ⟨ha, hi, hn, hl⟩ := hsame
  exact h.transfer hrec (fun l ho => ⟨ha ▸ ho, by rw [ha]⟩) (hi ▸ .refl _) hn hl

/-- What a lane in the given state needs. -/
def LaneFits (s : ResourceManager) (lane : Nat) : LogicalLaneState → Prop
  | .free => (s.active lane).occupied = false
  | .materializing => ∃ r, s.transaction = .materialization r ∧ r.destination = lane
  | _ => (s.active lane).occupied

/-- One lane changes its state, and every other lane stays as it is. -/
theorem LaneStates.setOne (h : LaneStates s) (state : LogicalLaneState)
    (hlane : lane < s.laneCount → LaneFits t lane state)
    (hl : t.laneCount = s.laneCount) (hlanes : t.lanes = update s.lanes lane state)
    (hothers : ∀ l, l ≠ lane → t.active l = s.active l)
    (htr : ∀ r, r.destination ≠ lane →
      (t.transaction = .materialization r ↔ s.transaction = .materialization r))
    (hrec : ∀ r, t.transaction = .materialization r → r.destination = lane →
      lane < t.laneCount ∧ state = .materializing) : LaneStates t := by
  have hself : t.lanes lane = state := by rw [hlanes, update_self]
  have hsame : ∀ l, l ≠ lane → t.lanes l = s.lanes l := fun l hne => by
    rw [hlanes, update_of_ne hne]
  refine ⟨fun l hlt hst => ?_, fun l hlt hst => ?_, fun l hlt hst => ?_, fun r hr => ?_⟩
  · rcases eq_or_ne l lane with rfl | hne
    · rw [hself] at hst
      rcases hst with rfl | rfl <;> exact hlane (hl ▸ hlt)
    · rw [hothers l hne]
      exact h.running l (hl ▸ hlt) (hsame l hne ▸ hst)
  · rcases eq_or_ne l lane with rfl | hne
    · obtain rfl := hself.symm.trans hst
      exact hlane (hl ▸ hlt)
    · rw [hothers l hne]
      exact h.free l (hl ▸ hlt) (hsame l hne ▸ hst)
  · rcases eq_or_ne l lane with rfl | hne
    · obtain rfl := hself.symm.trans hst
      exact hlane (hl ▸ hlt)
    · obtain ⟨r, hr, rfl⟩ := h.materializing l (hl ▸ hlt) (hsame l hne ▸ hst)
      exact ⟨r, (htr r hne).mpr hr, rfl⟩
  · by_cases hd : r.destination = lane
    · rw [hd, hself]
      exact hrec r hr hd
    · rw [hl, hsame _ hd]
      exact h.record r ((htr r hd).mp hr)

/-! ## Materializations -/

section Materialization

variable {choice : Choice} {r : MaterializationRecord}

theorem reserveLogical_setTransaction (s : ResourceManager) (tr : Transaction)
    (r : MaterializationRecord) : (s.setTransaction tr).reserveLogicalMaterialization r =
      (s.reserveLogicalMaterialization r).setTransaction tr := by
  rw [reserveLogical_eq, reserveLogical_eq]
  rfl

theorem Invariant.reserve (h : Invariant s log) (hn : s.transaction = .none)
    (hok : ChoiceOk s choice) (hb : choice.Bound) (hord : choice.publicationOrder ∉ log) :
    Invariant ((s.setTransaction (.materialization
      (takeMaterializationRecord choice))).reserveLogicalMaterialization
        (takeMaterializationRecord choice)) log := by
  have hs := h.sound_none hn
  have hidle : (s.active choice.destination).occupied = false :=
    h.lanes.free _ hok.destination hok.free
  have hsound := hs.reserveLogical hok
  have hpend := hok.pending hs hb
  rw [reserveLogical_eq] at hsound hpend ⊢
  refine .of_pending h.size rfl hidle (hsound.transfer rfl) ?_ ?_ ?_
  · exact { hpend with }
  · refine h.lanes.setOne .materializing (fun _ => ⟨_, rfl, rfl⟩) rfl rfl (fun _ _ => rfl)
      (fun r' hne => ?_) fun r' _ _ => ⟨hok.destination, rfl⟩
    rw [hn]
    refine ⟨fun hr' => ?_, nofun⟩
    obtain rfl := Transaction.materialization.inj hr'
    exact absurd rfl hne
  · refine h.orders.keep ?_ rfl
    intro r' hr' _
    obtain rfl := Transaction.materialization.inj hr'
    exact hord

/-- The lane of an open record leaves it, and the record is closed. -/
theorem LaneStates.close (h : LaneStates s) (state : LogicalLaneState)
    (hlane : state ≠ .materializing ∧ LaneFits s r.destination state)
    (ht : s.transaction = .materialization r) (hl : t.laneCount = s.laneCount)
    (hlanes : t.lanes = update s.lanes r.destination state) (ha : t.active = s.active)
    (htr : t.transaction = .none) : LaneStates t := by
  refine h.setOne state (fun _ => ?_) hl hlanes (fun l _ => by rw [ha]) (fun r' hne => ?_)
    (by simp [htr])
  · unfold LaneFits at hlane ⊢
    cases state <;> simp_all
  · rw [htr, ht]
    refine ⟨nofun, fun hr => ?_⟩
    obtain rfl := Transaction.materialization.inj hr
    exact absurd rfl hne

theorem Invariant.rollback (h : Invariant s log) (ht : s.transaction = .materialization r)
    (ho : (s.active r.destination).occupied = false) :
    Invariant ((s.rollbackLogicalMaterialization r).setTransaction .none) log := by
  obtain ⟨hs, hp⟩ := h.pending ht ho
  have hsound := hs.rollbackLogical hp
  rw [rollbackLogical_eq] at hsound ⊢
  refine .of_none h.size rfl (hsound.transfer rfl)
    (h.lanes.close .free ⟨nofun, ho⟩ ht rfl rfl rfl rfl) ?_
  exact h.orders.keep (by simp [setTransaction]) rfl

theorem wp_reserveMaterialization (h : Kept o log s) (view : ReserveView)
    (hb : choice.Bound) (hord : choice.publicationOrder ∉ log) :
    wp (reserveMaterialization view choice)
      ⟨fun p t => Kept o log t ∧ p.2.Bound, fun _ t => Kept o log t, False⟩ s := by
  refine Checks.require.wp_bind (fun _ => h) fun _ hnone => ?_
  refine Checks.require.wp_bind (fun _ => h) fun _ _ => ?_
  rw [wp_ite]
  refine ⟨fun _ => ⟨h, hb⟩, fun _ => ?_⟩
  refine (checks_validateChoice choice view.resourceRevision).wp_bind (fun _ => h) fun _ hok => ?_
  have hres : Kept o log ((s.setTransaction (.materialization
      (takeMaterializationRecord choice))).reserveLogicalMaterialization
        (takeMaterializationRecord choice)) :=
    ⟨h.inv.reserve hnone.1 hok hb hord, by rw [reserveLogical_eq]; exact h.cells⟩
  simp only [wp_bind, wp_modify, wp_answer]
  refine ⟨fun status _ => ?_, fun _ _ => hres⟩
  rw [wp_ite]
  refine ⟨fun _ => ⟨⟨hres.inv.rollback ?_ ?_, ?_⟩, hb⟩, fun _ => ⟨hres, hb⟩⟩
  · rw [reserveLogical_setTransaction]
    rfl
  · rw [reserveLogical_setTransaction, reserveLogical_eq]
    exact h.inv.lanes.free _ hok.destination hok.free
  · dsimp only
    rw [rollbackLogical_eq]
    exact hres.cells

variable {result : MaterializationResult}

theorem Invariant.started (h : Invariant s log) (ht : s.transaction = .materialization r)
    (ho : (s.active r.destination).occupied = false) (hst : Started s t r result) :
    Invariant t (r.publicationOrder :: log) := by
  obtain ⟨hframe, hothers, hocc, hord, hcells, _, hsound⟩ := hst
  cases t
  cases hframe
  have hfresh := h.orders.record r ht ho
  obtain ⟨hlt, hmat⟩ := h.lanes.record r ht
  refine ⟨h.size, ?_, ?_, ?_, ?_⟩
  · rw [holding_started (by exact ht) hocc]
    exact hsound (h.pending ht ho).2 (h.pending ht ho).1
  · simp only [RecordOk, ht]
    exact fun hf => absurd hocc (by simp [hf])
  · exact h.lanes.setOne .materializing (fun _ => ⟨r, ht, rfl⟩) rfl
      (by rw [← hmat, update_eq_self]) hothers (fun _ _ => .rfl) fun _ _ _ => ⟨hlt, rfl⟩
  -- the new order is in no cell and in no other lane
  · have hcell := fun c hc hco => h.orders.cell c hc (hcells c hco).1
    have hold := fun l hne hlt hlo => h.orders.lane l hlt (hothers l hne ▸ hlo)
    refine ⟨fun c hc hco => ?_, fun l hlt hlo => ?_, fun l hlt hlo c hc hco => ?_,
      fun l hlt k hk hlo hko heq => ?_, fun r' hr' hf => ?_⟩
    · rw [(hcells c hco).2.2]
      exact List.mem_cons_of_mem _ (hcell c hc hco)
    · rcases eq_or_ne l r.destination with rfl | hne
      · rw [hord]
        exact List.mem_cons_self
      · rw [hothers l hne]
        exact List.mem_cons_of_mem _ (hold l hne hlt hlo)
    · rw [(hcells c hco).2.2]
      rcases eq_or_ne l r.destination with rfl | hne
      · rw [hord]
        exact fun heq => hfresh (heq ▸ hcell c hc hco)
      · rw [hothers l hne] at hlo ⊢
        exact h.orders.laneCell l hlt hlo c hc (hcells c hco).1
    · rcases eq_or_ne l r.destination with rfl | hne <;>
        rcases eq_or_ne k r.destination with rfl | hnk
      · rfl
      · rw [hord, hothers k hnk] at heq
        exact absurd (heq ▸ hold k hnk hk hko) hfresh
      · rw [hord, hothers l hne] at heq
        exact absurd (heq ▸ hold l hne hlt hlo) hfresh
      · rw [hothers l hne, hothers k hnk] at heq
        exact h.orders.laneLane l hlt k hk (hothers l hne ▸ hlo) (hothers k hnk ▸ hko) heq
    · obtain rfl := Transaction.materialization.inj (ht.symm.trans hr')
      cases hocc.symm.trans hf

theorem Invariant.abandoned (h : Invariant s log) (ht : s.transaction = .materialization r)
    (ho : (s.active r.destination).occupied = false) (hab : Abandoned s t r result) :
    Invariant t log := by
  obtain ⟨hframe, hcells, _, hsound⟩ := hab
  cases t
  cases hframe
  refine .of_none h.size rfl (hsound (h.pending ht ho).2 (h.pending ht ho).1)
    (h.lanes.close .free ⟨nofun, ho⟩ ht rfl rfl rfl rfl) ?_
  exact h.orders.transfer (by simp) (fun l hlo => ⟨hlo, rfl⟩) hcells rfl rfl

/-- The orders a progress adds: the order of the record it published. -/
def startedOrders (s : ResourceManager) : ContextTransactionOutcome → List Nat
  | .materialization (.published _) =>
    match s.transaction with
    | .materialization r => [r.publicationOrder]
    | _ => []
  | _ => []

theorem checks_openMaterialization (has : Bool) :
    Checks (openMaterialization has) s fun r => s.transaction = .materialization r := by
  refine .get_bind ?_
  split
  · next r hr =>
    split
    · exact .pure hr
    · exact .raise _
  · exact .raise _

/-- The adoption of a materialization result: all of it, or nothing. -/
theorem wp_adoptMaterializationProgress (hfits : ∀ r, s.transaction = .materialization r →
      (s.active r.destination).occupied = false → r.Fits) (has : Bool)
    (result : MaterializationResult) :
    wp (adoptMaterializationProgress has result)
      ⟨fun o t => ∃ r, s.transaction = .materialization r ∧
          (s.active r.destination).occupied = false ∧ Applied s t r result o,
        fun _ t => t = s, False⟩ s := by
  refine (checks_openMaterialization has).wp_bind (fun _ => rfl) fun r ht => ?_
  refine (checks_checkMaterialization r result).wp_bind (fun _ => rfl) fun _ hok => ?_
  exact wp_mono (wp_applyMaterialization hok (hfits r ht hok.idle))
    (fun o t ho => ⟨r, ht, hok.idle, ho⟩)
    (fun _ _ hf => hf.elim) id

theorem Invariant.applied {o : MaterializationOutcome} (h : Invariant s log)
    (ht : s.transaction = .materialization r) (ho : (s.active r.destination).occupied = false)
    (ha : Applied s t r result o) : Invariant t (startedOrders s (.materialization o) ++ log) := by
  cases o with
  | aborted => exact h.abandoned ht ho ha.2
  | published activation =>
    have := h.started ht ho ha.2.2
    simpa [startedOrders, ht] using this

end Materialization

/-! ## Captures -/

section Capture

variable {r : ActiveCaptureRecord}

/-- A capture opens and closes with the lanes as they are. -/
theorem LaneStates.setCapture (h : LaneStates s) (hm : ∀ r, s.transaction ≠ .materialization r)
    (hm' : ∀ r, t.transaction ≠ .materialization r) (hl : t.laneCount = s.laneCount)
    (hlanes : t.lanes = s.lanes) (ha : ∀ l, (t.active l).occupied = (s.active l).occupied) :
    LaneStates t := by
  refine ⟨fun l hlt hst => ?_, fun l hlt hst => ?_, fun l hlt hst => ?_, fun r hr => ?_⟩
  · rw [ha]
    exact h.running l (hl ▸ hlt) (hlanes ▸ hst)
  · rw [ha]
    exact h.free l (hl ▸ hlt) (hlanes ▸ hst)
  · obtain ⟨r, hr, _⟩ := h.materializing l (hl ▸ hlt) (hlanes ▸ hst)
    exact absurd hr (hm r)
  · exact absurd hr (hm' r)

theorem Invariant.captured {result : ActiveCaptureResult} (h : Invariant s log)
    (ht : s.transaction = .activeCapture r) (hc : Captured s t r result) : Invariant t log := by
  obtain ⟨hframe, hactive, hcells, _, hsound⟩ := hc
  have hlanes : ∀ l, (t.active l).occupied = (s.active l).occupied ∧
      (t.active l).publicationOrder = (s.active l).publicationOrder := fun l => by
    obtain ⟨sources, hl⟩ := hactive l
    rw [hl]
    exact ⟨rfl, rfl⟩
  cases t
  cases hframe
  refine .of_none h.size rfl (hsound (h.capture ht).2 (h.capture ht).1)
    (h.lanes.setCapture (by simp [ht]) (by simp) rfl rfl fun l => (hlanes l).1) ?_
  exact h.orders.transfer (by simp) (fun l hlo => ⟨(hlanes l).1 ▸ hlo, (hlanes l).2⟩) hcells rfl rfl

theorem checks_openActiveCapture (has : Bool) :
    Checks (openActiveCapture has) s fun r => s.transaction = .activeCapture r := by
  refine .get_bind ?_
  split
  · next r hr =>
    split
    · exact .pure hr
    · exact .raise _
  · exact .raise _

theorem wp_adoptActiveCaptureProgress (has : Bool) (result : ActiveCaptureResult) :
    wp (adoptActiveCaptureProgress has result)
      ⟨fun _ t => ∃ r, s.transaction = .activeCapture r ∧ Captured s t r result,
        fun _ t => t = s, False⟩ s := by
  refine (checks_openActiveCapture has).wp_bind (fun _ => rfl) fun r ht => ?_
  refine (checks_checkActiveCapture r result).wp_bind (fun _ => rfl) fun _ hok => ?_
  exact wp_mono (wp_applyActiveCapture hok) (fun _ t hc => ⟨r, ht, hc⟩) (fun _ _ hf => hf.elim) id

theorem Applied.settled {r : MaterializationRecord} {result : MaterializationResult}
    {o : MaterializationOutcome} (h : Applied s t r result o) (hp : PendingOk s r)
    (hs : Sound s r.holding) : Sound t {} ∧ t.catalogCount = s.catalogCount ∧
      CellsKept s.sessionIndex t.sessionIndex := by
  cases o with
  | aborted => exact ⟨h.2.sound hp hs, by rw [h.2.frame], h.2.cells⟩
  | published activation => exact ⟨h.2.2.sound hp hs, by rw [h.2.2.frame], h.2.2.cells⟩

/-- A terminal result leaves no slot held. -/
theorem wp_progressContextTransaction (h : Kept o log s) (hasBefore hasAfter : Bool)
    (progress : Except Fault ContextTransactionProgress) :
    wp (progressContextTransaction hasBefore hasAfter progress)
      ⟨fun a t => Kept o (startedOrders s a ++ log) t ∧ (a ≠ .inProgress → Sound t {}),
        fun _ t => t = s, False⟩ s := by
  refine Checks.require.wp_bind (fun _ => rfl) fun _ _ =>
    (Checks.answer _).wp_bind (fun _ => rfl) fun p _ => ?_
  cases p with
  | inProgress => exact ⟨h, fun hne => absurd rfl hne⟩
  | materialization result =>
    rw [wp_bind]
    refine wp_imp (wp_adoptMaterializationProgress
      (fun r hr ho => (h.inv.pending hr ho).2.fits) hasAfter result) (fun o t ho => ?_)
    obtain ⟨r, ht, hidle, happ⟩ := ho
    obtain ⟨hs, hp⟩ := h.inv.pending ht hidle
    obtain ⟨hsound, hn, hcells⟩ := happ.settled hp hs
    exact ⟨⟨h.inv.applied ht hidle happ, h.cells.trans hn hcells⟩, fun _ => hsound⟩
  | activeCapture result =>
    rw [wp_bind]
    refine wp_imp (wp_adoptActiveCaptureProgress hasAfter result) (fun _ t ho => ?_)
    obtain ⟨r, ht, hc⟩ := ho
    obtain ⟨hs, hp⟩ := h.inv.capture ht
    exact ⟨⟨h.inv.captured ht hc, h.cells.trans (by rw [hc.frame]) hc.cells⟩,
      fun _ => hc.sound hp hs⟩

/-- The owner of a capture claim is unchanged and idle. -/
def CaptureOwnerOk (s : ResourceManager) (slot : Nat) (c : CatalogCapability) : Prop :=
  if c.owner.kind = .sharedPrefix then c.slot < s.sharedCatalogCount ∧ c.slot ≠ slot ∧
    s.SharedUnchanged c ∧ s.SharedIdle c.slot
  else c.slot < s.catalogCount ∧ s.PrivateUnchanged c ∧ s.privateHasActiveEdge c.slot = false

theorem checks_checkCaptureOwner (slot : Nat) (c : CatalogCapability) :
    Checks (checkCaptureOwner slot c) s fun _ => CaptureOwnerOk s slot c := by
  unfold checkCaptureOwner CaptureOwnerOk
  by_cases hk : c.owner.kind = .sharedPrefix
  · simp only [if_pos hk]
    exact Checks.require.bind fun _ h1 => Checks.require.mono fun _ h2 =>
      ⟨h1.1, h1.2, h2.1, h2.2⟩
  · simp only [if_neg hk]
    exact Checks.require.bind fun _ h1 => Checks.require.mono fun _ h2 =>
      ⟨h1, h2.1, by simpa using h2.2⟩

theorem checks_captureClaim (slot : Nat) (records : List PlanningOwnerRecord)
    (checkpoints : List PressureCheckpointOutcome) (outcome : PressureOwnerOutcome) :
    Checks (captureClaim slot records checkpoints outcome) s fun c =>
      CaptureOwnerOk s slot c.capability := by
  unfold captureClaim
  split
  · exact .raise _
  · exact (checks_checkCaptureOwner slot _).bind fun _ hok =>
      (checks_ownerClaim _ _ _).mono fun c hc => hc ▸ hok

theorem checks_checkCapturePublication (r : ActiveCaptureRecord) (slot : Nat) :
    Checks (checkCapturePublication r slot) s fun _ => slot < s.sharedCatalogCount ∧
      s.SharedIdle slot ∧ (r.replacementId = 0 → (s.sharedCatalog slot).state = .vacant) ∧
      (r.replacementId ≠ 0 → (s.sharedCatalog slot).state = .catalogued) := by
  refine Checks.require.bind fun _ hlt => ?_
  split
  · next hrep =>
    exact Checks.require.mono fun _ h =>
      ⟨hlt, h.2.2.2, fun _ => h.1, fun hne => absurd hrep hne⟩
  · next hrep =>
    exact Checks.require.mono fun _ h =>
      ⟨hlt, h.2.2.2.2, fun heq => absurd heq hrep, fun _ => h.1⟩

theorem reserveCapture_setTransaction (s : ResourceManager) (tr : Transaction)
    (r : ActiveCaptureRecord) (slot : Nat) :
    (s.setTransaction tr).reserveLogicalActiveCapture r slot =
      (s.reserveLogicalActiveCapture r slot).setTransaction tr := by
  unfold reserveLogicalActiveCapture
  rw [captureStates_eq, captureStates_eq]
  rfl

theorem Invariant.reserveCapture {slot : Nat} (h : Invariant s log) (hn : s.transaction = .none)
    (hok : CaptureChosen s r slot) :
    Invariant ((s.setTransaction (.activeCapture r)).reserveLogicalActiveCapture r slot) log := by
  have hs := h.sound_none hn
  have hsound := hs.reserveCapture hok
  have hp := hok.captureOk hs
  unfold reserveLogicalActiveCapture at hsound hp ⊢
  rw [captureStates_eq] at hsound hp ⊢
  refine .of_capture h.size rfl (hsound.transfer rfl) ?_
    (h.lanes.setCapture (by simp [hn]) (by simp [setTransaction]) rfl rfl fun _ => rfl) ?_
  · exact { hp with }
  · exact h.orders.keep (by simp [setTransaction]) rfl

theorem Invariant.rollbackCapture {slot : Nat} (h : Invariant s log)
    (ht : s.transaction = .activeCapture r) (hslot : r.publicationSlot = some slot) :
    Invariant ((s.rollbackLogicalActiveCapture r slot).setTransaction .none) log := by
  obtain ⟨hs, hp⟩ := h.capture ht
  have hsound := hs.rollbackCapture hp hslot
  unfold rollbackLogicalActiveCapture at hsound ⊢
  rw [captureStates_eq] at hsound ⊢
  refine .of_none h.size rfl (hsound.transfer rfl)
    (h.lanes.setCapture (by simp [ht]) (by simp [setTransaction]) rfl rfl fun _ => rfl) ?_
  exact h.orders.keep (by simp [setTransaction]) rfl

variable {view : CaptureView}

theorem wp_reserveSelectedCapture {scenario : CaptureScenario} {plan : CapturePlan}
    (h : Kept o log s) (hn : s.transaction = .none) :
    wp (reserveSelectedCapture view lane scenario plan)
      ⟨fun _ t => Kept o log t, fun _ t => Kept o log t, False⟩ s := by
  refine (Checks.collect fun o _ => checks_captureClaim _ _ _ o).wp_bind (fun _ => h)
    fun claims hclaims => ?_
  refine Checks.require.wp_bind (fun _ => h) fun _ _ =>
    (checks_checkCapturePublication _ _).wp_bind (fun _ => h) fun _ hpub => ?_
  obtain ⟨hlt, hidle, hvac, hrep⟩ := hpub
  have hchosen : CaptureChosen s
      { lane
        publishesPrivate := scenario.assessment.publishesPrivate
        publishesShared := true
        publicationSlot := some scenario.publicationSlot
        replacementId := scenario.replacementId
        replacementRevision := scenario.replacementRevision
        sharedEvidence := scenario.assessment.sharedEvidence
        privateClaims := claims.filter fun c => ¬ c.isShared
        sharedClaims := claims.filter (·.isShared) } scenario.publicationSlot := by
    refine ⟨rfl, fun c hc => ?_, fun c hc => ?_, hlt, hidle, hvac, hrep, rfl⟩
    · obtain ⟨hc, hsh⟩ := List.mem_filter.mp hc
      have := hclaims c hc
      rwa [CaptureOwnerOk, if_neg (by simpa [OwnerClaim.isShared] using hsh)] at this
    · obtain ⟨hc, hsh⟩ := List.mem_filter.mp hc
      have := hclaims c hc
      rwa [CaptureOwnerOk, if_pos (by simpa [OwnerClaim.isShared] using hsh)] at this
  have hres : Kept o log _ := ⟨h.inv.reserveCapture hn hchosen, by
    rw [reserveCapture_setTransaction, reserveLogicalActiveCapture,
      captureStates_eq]
    exact h.cells⟩
  simp only [wp_bind, wp_modify, wp_answer]
  refine ⟨fun status _ => ?_, fun _ _ => hres⟩
  rw [wp_ite]
  refine ⟨fun _ => ?_, fun _ => hres⟩
  refine ⟨hres.inv.rollbackCapture ?_ rfl, ?_⟩
  · rw [reserveCapture_setTransaction]
    rfl
  · dsimp only
    rw [rollbackLogicalActiveCapture, captureStates_eq]
    exact hres.cells

theorem wp_reservePrivateCapture {baseline : CaptureAssessment} (h : Kept o log s)
    (hn : s.transaction = .none) :
    wp (reservePrivateCapture view lane baseline)
      ⟨fun _ t => Kept o log t, fun _ t => Kept o log t, False⟩ s := by
  have hs := h.inv.sound_none hn
  have hopen : Kept o log (s.setTransaction (.activeCapture { lane, publishesPrivate := true }))
      := by
    refine ⟨.of_capture h.inv.size rfl ?_ ⟨by simp, by simp, by simp, by simp⟩
      (h.inv.lanes.setCapture (by simp [hn]) (by simp [setTransaction]) rfl rfl
        fun _ => rfl) ?_, h.cells⟩
    · have htr : Sound (s.setTransaction (.activeCapture { lane, publishesPrivate := true })) {} :=
        hs.transfer rfl
      refine ((htr.congrPriv fun k _ => ?_).congrShared fun k _ => ?_).congrCaptured
        fun k _ => ?_ <;>
        simp
    · exact h.inv.orders.keep (by simp [setTransaction]) rfl
  have hclosed : (s.setTransaction (.activeCapture { lane, publishesPrivate := true })
      ).setTransaction .none = s := by
    unfold setTransaction
    rw [← hn]
  unfold reservePrivateCapture
  rw [wp_ite]
  refine ⟨fun _ => h, fun _ => ?_⟩
  simp only [wp_bind, wp_modify, wp_answer]
  refine ⟨fun status _ => ?_, fun _ _ => hopen⟩
  rw [wp_ite]
  refine ⟨fun _ => ?_, fun _ => hopen⟩
  show Kept o log ((s.setTransaction (.activeCapture { lane, publishesPrivate := true })
    ).setTransaction .none)
  rw [hclosed]
  exact h

theorem wp_reserveActiveCapture (h : Kept o log s) : wp (reserveActiveCapture view lane)
      ⟨fun _ t => Kept o log t, fun _ t => Kept o log t, False⟩ s := by
  refine (checks_requireLane _ _).wp_bind (fun _ => h) fun _ _ =>
    wp_get_bind.mpr ?_
  refine Checks.require.wp_bind (fun _ => h) fun _ hhas => ?_
  rw [wp_ite]
  refine ⟨fun _ => h, fun hno => ?_⟩
  have hn : s.transaction = .none := by
    by_contra hne
    exact hno (hhas.mp hne)
  refine checks_rebuildPrefixIndex.wp_bind (fun _ => h) fun index _ => ?_
  dsimp only
  split
  · exact wp_reservePrivateCapture h hn
  · exact wp_reserveSelectedCapture h hn

end Capture

/-! ## Lanes -/

/-- A record reads only the slots it names. -/
theorem PendingOk.congr (h : PendingOk s r) (hn : t.catalogCount = s.catalogCount)
    (hm : t.sharedCatalogCount = s.sharedCatalogCount)
    (hc : ∀ k, r.NamesPrivate k → t.catalog k = s.catalog k)
    (hs : t.sharedCatalog = s.sharedCatalog) : PendingOk t r := by
  refine ⟨hn ▸ h.publication, fun c hcs => ?_, fun c hcs => ?_, fun hsrc hcl => ?_, h.fits,
    fun c hcs => ?_, fun c hcs => ?_⟩
  · rw [hn, hc _ (.inl ⟨c, hcs, rfl⟩)]
    exact h.source c hcs
  · rw [hn, hc _ (.inr (.inl ⟨c, hcs, rfl⟩))]
    exact h.claims c hcs
  · rw [hc _ (.inr (.inr rfl))]
    exact h.spare hsrc hcl
  · rw [hm, hs]
    exact h.sharedSource c hcs
  · rw [hm, hs]
    exact h.sharedClaims c hcs

theorem CaptureOk.congr {r : ActiveCaptureRecord} (h : CaptureOk s r)
    (hn : t.catalogCount = s.catalogCount) (hm : t.sharedCatalogCount = s.sharedCatalogCount)
    (hc : ∀ k, slotsOf r.privateClaims k → t.catalog k = s.catalog k)
    (hs : t.sharedCatalog = s.sharedCatalog) : CaptureOk t r := by
  refine ⟨fun c hcs => ?_, fun c hcs => ?_, fun k hk => ?_, h.privateOnly⟩
  · rw [hn, hc _ ⟨c, hcs, rfl⟩]
    exact h.claims c hcs
  · rw [hm, hs]
    exact h.sharedClaims c hcs
  · rw [hm, hs]
    exact h.publication k hk

/-- The open record stands while its lane and the slots it holds are left alone. -/
theorem RecordOk.congr (h : RecordOk s) (htr : t.transaction = s.transaction)
    (ha : ∀ r, s.transaction = .materialization r → t.active r.destination = s.active r.destination)
    (hn : t.catalogCount = s.catalogCount) (hm : t.sharedCatalogCount = s.sharedCatalogCount)
    (hc : ∀ k, s.holding.priv k → t.catalog k = s.catalog k)
    (hs : t.sharedCatalog = s.sharedCatalog) : RecordOk t ∧ t.holding = s.holding := by
  unfold RecordOk holding at *
  rw [htr]
  cases htx : s.transaction with
  | none => exact ⟨trivial, rfl⟩
  | materialization r =>
    simp only [htx, ha r htx] at h hc ⊢
    refine ⟨fun ho => (h ho).congr hn hm (fun k hk => hc k ?_) hs, trivial⟩
    simp only [ho]
    exact hk
  | activeCapture r =>
    simp only [htx] at h hc ⊢
    exact ⟨CaptureOk.congr h hn hm hc hs, trivial⟩

/-- A running lane ends without a continuation, whatever transaction is open. -/
theorem Invariant.freeLane (h : Invariant s log)
    (hst : s.lanes lane = .active ∨ s.lanes lane = .terminalPending) (hp : s.Publishes lane j) :
    Invariant (s.freeLane lane j) log := by
  have hdest : ∀ r, s.transaction = .materialization r → r.destination ≠ lane := by
    rintro r hr rfl
    rw [(h.lanes.record r hr).2] at hst
    simp at hst
  have hactive : ∀ l, l ≠ lane → (s.freeLane lane j).active l = s.active l :=
    fun l hl => update_of_ne hl _ _
  have hgone : ((s.freeLane lane j).active lane).occupied = false := by
    simp [ResourceManager.freeLane, setLane, setActive]
  obtain ⟨i, hi, hpi, _⟩ := (h.sound.lane lane hp.1).publication hp.2.1
  obtain rfl := Option.mem_unique hpi hp.2.2
  -- the reserved slot is not one a record names
  have hheld : ¬ s.holding.priv i := by
    rw [← (h.sound.priv i hi).claimed, (h.sound.priv i hi).reserved.mpr ⟨lane, hp⟩]
    simp
  obtain ⟨hrec, hholding⟩ := h.record.congr (t := s.freeLane lane i) rfl
    (fun r hr => hactive _ (hdest r hr)) rfl rfl
    (fun k hk => update_of_ne (fun heq : k = i => hheld (heq ▸ hk)) _ _) rfl
  refine ⟨h.size, hholding ▸ h.sound.freeLane hp, hrec, ?_, ?_⟩
  · exact h.lanes.setOne .free (fun _ => hgone) rfl rfl hactive (fun _ _ => .rfl) fun r hr hd =>
      absurd hd (hdest r hr)
  · refine h.orders.transfer (fun r hr ho => ?_) (fun l ho => ?_) (.refl _) rfl rfl
    · rw [hactive _ (hdest r hr)] at ho
      exact h.orders.record r hr ho
    · by_cases hl : l = lane
      · subst hl
        rw [hgone] at ho
        simp at ho
      · rw [hactive l hl] at ho ⊢
        exact ⟨ho, rfl⟩

/-- A lane without a transaction ends with its continuation published. -/
theorem Invariant.finished (h : Invariant s log) (hn : s.transaction = .none)
    (hl : lane < s.laneCount) (ho : (s.active lane).occupied) (hf : Finished s t lane) :
    Invariant t log := by
  obtain ⟨hframe, _, hcells, _, hsound⟩ := hf
  cases t
  cases hframe
  refine .of_none h.size hn hsound ?_ ?_
  · exact h.lanes.setOne .free (fun _ => by simp [LaneFits]) rfl rfl
      (fun l hne => update_of_ne hne _ _) (fun _ _ => .rfl) (by simp [hn])
  · refine h.orders.handOver (by simp [hn]) (fun l hlo => ?_) (fun c hc hco => ?_) rfl rfl
    · rcases eq_or_ne l lane with rfl | hne
      · simp at hlo
      · simpa [update_of_ne hne] using hlo
    · exact (hcells c hc hco).imp id fun hp => ⟨lane, hl, ho, by simp, hp⟩

theorem Invariant.terminate (h : Invariant s log) (hst : s.lanes lane = .active) :
    Invariant (s.setLane lane .terminalPending) log := by
  obtain ⟨hrec, _⟩ := h.record.congr (t := s.setLane lane .terminalPending) rfl (fun _ _ => rfl)
    rfl rfl (fun _ _ => rfl) rfl
  refine ⟨h.size, h.sound.transfer rfl, hrec, ?_, ?_⟩
  · refine h.lanes.setOne .terminalPending (fun hlt => h.lanes.running lane hlt (.inl hst)) rfl rfl
      (fun _ _ => rfl) (fun _ _ => .rfl) fun r hr hd => ?_
    rw [← hd, (h.lanes.record r hr).2] at hst
    cases hst
  · exact h.orders.keep h.orders.record rfl

theorem wp_markTerminalPending (h : Kept o log s) :
    wp (markTerminalPending lane) (keeps (Kept o log)) s := by
  refine (checks_requireLane _ _).wp_bind (fun _ => h) fun _ hlane => ?_
  exact ⟨h.inv.terminate hlane.2.1, h.cells⟩

theorem wp_adopt (h : Kept o log s) (has : Bool) (activation : PublishedActivation) :
    wp (adopt has activation) (keeps (Kept o log)) s := by
  refine wp_get_bind.mpr ?_
  cases htx : s.transaction with
  | none => trivial
  | activeCapture r => trivial
  | materialization r =>
    simp only [wp_ite, wp_bind, wp_modify, wp_die]
    refine ⟨fun hcond => ?_, fun _ => trivial⟩
    obtain ⟨hl, hmat, hocc, _⟩ := hcond
    obtain ⟨r', hr', hd⟩ := h.inv.lanes.materializing _ hl hmat
    rw [htx] at hr'
    obtain rfl := Transaction.materialization.inj hr'
    have hsound : Sound s {} := holding_started htx (hd ▸ hocc) ▸ h.inv.sound
    refine ⟨.of_none h.inv.size rfl (hsound.transfer rfl) ?_ ?_, h.cells⟩
    · rw [← hd] at hocc ⊢
      exact h.inv.lanes.close .active ⟨by simp, hocc⟩ htx rfl rfl rfl rfl
    · exact h.inv.orders.keep (by simp [setTransaction]) rfl

/-- A finish that ends the lane keeps the invariant and binds no key to an older order. -/
theorem wp_finish_invariant (h : Invariant s log) (view : FinishView) (lane : Nat) :
    wp (finish view lane) ⟨fun _ t => Invariant t log ∧ t.catalogCount = s.catalogCount ∧
          OrdersGrow s.catalogCount s.sessionIndex t.sessionIndex ∧
          (∀ key, (s.active lane).session = some key →
            HeldByNewer s key (s.active lane).publicationOrder → t.sessionIndex = s.sessionIndex),
        fun _ t => t = s, False⟩ s := by
  refine wp_imp (wp_finish h.sound_none fun c hc hco hl ho =>
    (h.orders.laneCell lane hl ho c hc hco).symm) (fun _ t ht => ?_)
  obtain ⟨hn, hl, hterm, hf | ⟨j, hp, rfl⟩⟩ := ht
  · exact ⟨h.finished hn hl (h.lanes.running lane hl (.inr hterm)) hf, by rw [hf.frame], hf.grow,
      hf.newer⟩
  · exact ⟨h.freeLane (Or.inr hterm) hp, rfl, (CellsKept.refl _).grow h.sound.indexed,
      fun _ _ _ => rfl⟩

section

variable (h : Kept o log s)

include h

theorem wp_releaseCancelledLane :
    wp (releaseCancelledLane lane) (keeps (Kept o log)) s := by
  refine Checks.require.wp_bind (fun _ => h) fun _ hlane => ?_
  obtain ⟨hl, ho, hst⟩ := hlane
  refine wp_mono (wp_releaseLane h.inv.sound hl ho) (fun _ t ht => ?_) (fun _ _ hf => hf.elim)
    False.elim
  obtain ⟨j, hp, rfl⟩ := ht
  exact ⟨h.inv.freeLane hst hp, h.cells⟩

theorem wp_abort (has : Bool) (status : Except Fault ConsumeStatus) :
    wp (abort has status lane) (keeps (Kept o log)) s := by
  refine Checks.require.wp_bind (fun _ => h) fun _ hnone =>
    Checks.require.wp_bind (fun _ => h) fun _ _ => ?_
  -- the rest starts with the lane terminal pending, or throws
  have hrest : ∀ t, Kept o log t → wp (do
      requireLane lane .terminalPending
      let answered ← Eff.answer status
      Eff.require (answered = .consumed) (.logicError "Program did not consume aborted sequence")
      releaseLane lane) (keeps (Kept o log)) t := by
    intro t ht
    refine (checks_requireLane _ _).wp_bind (fun _ => ht) fun _ hlane => ?_
    obtain ⟨hl, hterm, hocc⟩ := hlane
    refine (Checks.answer _).wp_bind (fun _ => ht) fun _ _ =>
      Checks.require.wp_bind (fun _ => ht) fun _ _ => ?_
    refine wp_mono (wp_releaseLane ht.inv.sound hl (hocc (Or.inr rfl))) (fun _ v hv => ?_)
      (fun _ _ hf => hf.elim) False.elim
    obtain ⟨j, hp, rfl⟩ := hv
    exact ⟨ht.inv.freeLane (.inr hterm) hp, ht.cells⟩
  rw [wp_bind, wp_when]
  exact ⟨fun hact => hrest _ ⟨h.inv.terminate hact, h.cells⟩, fun _ => hrest s h⟩

theorem wp_applyCommit (lanes : List Nat) (result : CommitResult) :
    wp (applyCommit lanes result) (keeps (Kept o log)) s := by
  refine Checks.require.wp_bind (fun _ => h) fun _ _ => ?_
  refine wp_forEach_keeps (fun p _ t ht => ?_) h
  refine (checks_requireLane _ _).wp_bind (fun _ => ht) fun _ hlane => ?_
  cases p.2 with
  | active => exact ht
  | finishable => exact ⟨ht.inv.terminate hlane.2.1, ht.cells⟩
  | cancelledReleased => exact wp_releaseCancelledLane ht

theorem wp_applyDiscard (lanes : List Nat) (result : DiscardResult) :
    wp (applyDiscard lanes result) (keeps (Kept o log)) s := by
  refine Checks.require.wp_bind (fun _ => h) fun _ _ => ?_
  exact wp_forEach_keeps (fun lane _ t ht => wp_releaseCancelledLane ht) h

theorem wp_releaseFailedCommit (lanes : List Nat) :
    wp (releaseFailedCommit lanes) (keeps (Kept o log)) s := by
  refine wp_forEach_keeps (fun lane _ t ht => ?_) h
  simp only [wp_bind, wp_get, wp_when, wp_swallow]
  exact ⟨fun _ => wp_releaseCancelledLane ht, fun _ => ht⟩

end

/-! ## The empty tables -/

/-- Tables with nothing in them are sound. -/
theorem sound_empty (hl : ∀ l < s.laneCount, s.active l = {})
    (hc : ∀ k < s.catalogCount, (s.catalog k).state = .vacant ∧ (s.catalog k).Blank)
    (hs : ∀ k < s.sharedCatalogCount, (s.sharedCatalog k).state = .vacant ∧
      (s.sharedCatalog k).Blank ∧ (s.sharedCatalog k).transactionPins = 0)
    (hi : ∀ c, s.sessionIndex c = {}) : Sound s {} := by
  have hpub : ∀ k, ¬ s.Published k := by
    rintro k ⟨l, hlt, ho, _⟩
    rw [hl l hlt] at ho
    simp at ho
  refine ⟨fun k hk => ?_, fun k hk => ?_, fun l hlt => ?_, fun l k i hli => ?_, ?_, ?_⟩
  · rw [eq_false (hpub k)]
    exact PrivateSlot.ofVacant (hc k hk).1 (hc k hk).2
  · exact SharedSlot.ofVacant (hs k hk).1 (hs k hk).2.1 (hs k hk).2.2
  · rw [hl l hlt]
    constructor <;> simp
  · exact absurd ⟨l, hli⟩ (hpub i)
  · exact Probing.linked_of_no_occupied fun c _ => by simp [hi c]
  · intro c _ ho
    simp [hi c] at ho

theorem Invariant.empty (hsize : 0 < s.catalogCount) (ht : s.transaction = .none)
    (hf : ∀ l < s.laneCount, s.lanes l = .free) (hl : ∀ l < s.laneCount, s.active l = {})
    (hi : ∀ c, s.sessionIndex c = {}) (hs : Sound s {}) : Invariant s log := by
  refine .of_none hsize ht hs ?_ ?_
  · refine ⟨fun l hlt hst => ?_, fun l hlt _ => by rw [hl l hlt], fun l hlt hst => ?_, by simp [ht]⟩
    · rw [hf l hlt] at hst
      simp at hst
    · rw [hf l hlt] at hst
      simp at hst
  · refine ⟨fun c _ ho => ?_, fun l hlt ho => ?_, fun l hlt ho => ?_, fun l hlt k _ ho => ?_,
      by simp [ht]⟩
    · simp [hi c] at ho
    · simp [hl l hlt] at ho
    · simp [hl l hlt] at ho
    · simp [hl l hlt] at ho

theorem Invariant.cleared (h : Invariant s log) : Invariant s.clearAfterProgramCleanup log := by
  refine .empty h.size rfl (fun l hl => ?_) (fun l hl => ?_) (fun _ => rfl)
    (sound_empty (fun l hl => ?_) (fun k hk => ?_) (fun k hk => ?_) fun _ => rfl)
  · exact if_pos hl
  · exact if_pos hl
  · exact if_pos hl
  · have : s.clearAfterProgramCleanup.catalog k = clearCatalogEntry (s.catalog k) := if_pos hk
    rw [this]
    exact ⟨rfl, rfl, rfl, rfl⟩
  · have : s.clearAfterProgramCleanup.sharedCatalog k = clearSharedEntry (s.sharedCatalog k) :=
      if_pos hk
    rw [this]
    exact ⟨rfl, ⟨rfl, rfl⟩, rfl⟩

/-- The constructor's tables are empty. -/
theorem invariant_make {laneCount privateCapacity sharedCapacity maxLongAnchors : Nat}
    {cacheEnabled : Bool}
    (h : make laneCount privateCapacity sharedCapacity cacheEnabled
      maxLongAnchors = some s) : Invariant s [] := by
  unfold make at h
  split at h
  · simp at h
  · split at h
    · simp at h
    · next hcond =>
      obtain rfl := Option.some.inj h
      refine .empty (by simp only; omega) rfl (fun _ _ => rfl) (fun _ _ => rfl)
        (fun _ => rfl) (sound_empty (fun _ _ => rfl) (fun _ _ => ⟨rfl, rfl, rfl, rfl⟩)
          (fun _ _ => ⟨rfl, ⟨rfl, rfl⟩, rfl⟩) fun _ => rfl)

end Ninfer.Resources
