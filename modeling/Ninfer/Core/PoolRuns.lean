/-
  Runs of a `DeviceKVPagePool` and its clients.

  The clients hold reservations, vectors of leases and single leases, and call the pool in any
  order; an object that was released or moved from stays where it is, empty. A vector's element
  can also be released in place or moved out. In every reached state the pool's accounts are
  those of the leases and reservations the clients hold.
-/
import Ninfer.Lib.Reach
import Ninfer.Core.PoolAccounts

namespace Ninfer.DeviceKVPagePool

open Lib Function

structure PoolSystem where
  pool : DeviceKVPagePool
  reservations : List DeviceKVPageReservation := []
  vectors : List LeaseVector := []
  leases : List DeviceKVPageLease := []

/-- Objects are named by their place in the clients' lists. -/
inductive Command where
  | reserve (pages : Nat)
  | makeEmptyReservation
  | resizeReservation (r newReservedPages : Nat)
  | clearReservation (r : Nat)
  /-- `release`, or the destructor of the reservation. -/
  | dropReservation (r : Nat)
  | newVector (capacity : Nat)
  | materialize (r targetPageCount v : Nat) (preferredPredecessor : Option DeviceKVPageHandle)
  | materializeOne (r : Nat)
  | dematerialize (r targetPageCount v : Nat)
  | dematerializeOne (r l : Nat)
  /-- `release`, or the destructor of the lease. -/
  | releaseLease (l : Nat)
  | destroyVector (v : Nat)
  /-- Move the `k`-th lease of a vector out of it. -/
  | takeLease (v k : Nat)

namespace PoolSystem

def onPool {α : Type} (m : Eff DeviceKVPagePool α) : Eff PoolSystem α :=
  Eff.zoom (·.pool) (fun s p => { s with pool := p }) m

/-- Run `k` on the `i`-th object of a list, if there is one. -/
def withItem {α : Type} (list : PoolSystem → List α) (i : Nat) (k : α → Eff PoolSystem Unit) :
    Eff PoolSystem Unit := do
  let s ← Eff.get
  match (list s)[i]? with
  | none => pure ()
  | some a => k a

def setReservation (i : Nat) (r : DeviceKVPageReservation) : Eff PoolSystem Unit :=
  Eff.modify fun s => { s with reservations := s.reservations.set i r }

def setVector (i : Nat) (v : LeaseVector) : Eff PoolSystem Unit :=
  Eff.modify fun s => { s with vectors := s.vectors.set i v }

def setLease (i : Nat) (l : DeviceKVPageLease) : Eff PoolSystem Unit :=
  Eff.modify fun s => { s with leases := s.leases.set i l }

def addReservation (r : DeviceKVPageReservation) : Eff PoolSystem Unit :=
  Eff.modify fun s => { s with reservations := s.reservations ++ [r] }

def addLease (l : DeviceKVPageLease) : Eff PoolSystem Unit :=
  Eff.modify fun s => { s with leases := s.leases ++ [l] }

def run : Command → Eff PoolSystem Unit
  | .reserve pages => do
    match ← onPool (reserve pages) with
    | none => pure ()
    | some r => addReservation r
  | .makeEmptyReservation => do
    let s ← Eff.get
    addReservation s.pool.makeEmptyReservation
  | .resizeReservation r n => withItem (·.reservations) r fun reservation => do
    setReservation r (← onPool (resizeReservation reservation n))
  | .clearReservation r => withItem (·.reservations) r fun reservation => do
    setReservation r (← onPool (clearReservation reservation))
  | .dropReservation r => withItem (·.reservations) r fun reservation => do
    setReservation r (← onPool (dropReservation reservation))
  | .newVector capacity => Eff.modify fun s => { s with vectors := s.vectors ++ [⟨[], capacity⟩] }
  | .materialize r target v pred => withItem (·.reservations) r fun reservation =>
    withItem (·.vectors) v fun vector => do
      let (reservation, vector) ← onPool (materialize reservation target vector pred)
      setReservation r reservation
      setVector v vector
  | .materializeOne r => withItem (·.reservations) r fun reservation => do
    let (reservation, lease) ← onPool (materializeOne reservation)
    setReservation r reservation
    addLease lease
  | .dematerialize r target v => withItem (·.reservations) r fun reservation =>
    withItem (·.vectors) v fun vector => do
      let (reservation, vector) ← onPool (dematerialize reservation target vector)
      setReservation r reservation
      setVector v vector
  | .dematerializeOne r l => withItem (·.reservations) r fun reservation =>
    withItem (·.leases) l fun lease => do
      setReservation r (← onPool (dematerializeOne reservation lease))
      setLease l {}
  | .releaseLease l => withItem (·.leases) l fun lease => do
    let _ ← onPool (releaseLease lease)
    setLease l {}
  | .destroyVector v => withItem (·.vectors) v fun vector => do
    onPool (Eff.forEach vector.leases fun page => do let _ ← releaseLease page)
    setVector v {}
  | .takeLease v k => withItem (·.vectors) v fun vector => do
    match vector.leases[k]? with
    | none => pure ()
    | some lease =>
      setVector v { vector with leases := vector.leases.set k {} }
      addLease lease

def Fresh (s : PoolSystem) : Prop :=
  ∃ id pageGroupCount pool, init id pageGroupCount = .ok pool ∧ s = { pool }

/-! ## What the clients hold -/

/-- The live leases of the pool, wherever they are held. -/
def live (s : PoolSystem) : Multiset DeviceKVPageLease :=
  (s.vectors.map fun v => liveOf s.pool.id v.leases).sum + liveOf s.pool.id s.leases

/-- The pages of the live reservations. -/
def reservedTotal (s : PoolSystem) : Nat :=
  (s.reservations.map (·.pages)).sum

structure WellFormed (s : PoolSystem) : Prop where
  accounts : Accounts s.pool s.live s.reservedTotal
  owned : ∀ r ∈ s.reservations, (r.owner = none ∧ r.pages = 0) ∨ r.owner = some s.pool.id

/-! ## Bookkeeping of the clients' lists -/

section Lists

variable {s t : PoolSystem} {k : Nat}

variable {r r' : DeviceKVPageReservation} {L : Multiset DeviceKVPageLease}

theorem pages_le (hr : s.reservations[k]? = some r) : r.pages ≤ s.reservedTotal :=
  List.le_sum_of_mem (List.mem_map_of_mem (List.mem_of_getElem? hr))

theorem reservedTotal_set (hr : s.reservations[k]? = some r)
    (ht : t.reservations = s.reservations.set k r') {R : Nat}
    (hR : R + r.pages = s.reservedTotal + r'.pages) : t.reservedTotal = R := by
  unfold reservedTotal at *
  rw [ht]
  exact Nat.add_right_cancel ((sum_map_set hr r' (·.pages)).trans hR.symm)

theorem live_eq (hid : t.pool.id = s.pool.id) (hv : t.vectors = s.vectors)
    (hl : t.leases = s.leases) : t.live = s.live := by
  unfold live
  rw [hid, hv, hl]

theorem live_setVector {v v' : LeaseVector} (hv : s.vectors[k]? = some v)
    (hid : t.pool.id = s.pool.id) (hvec : t.vectors = s.vectors.set k v')
    (hl : t.leases = s.leases)
    (hL : L + liveOf s.pool.id v.leases = s.live + liveOf s.pool.id v'.leases) : t.live = L := by
  refine add_right_cancel (Eq.trans ?_ hL.symm)
  unfold live
  rw [hid, hvec, hl, add_right_comm, sum_map_set hv v' fun v => liveOf s.pool.id v.leases,
    add_right_comm]

theorem live_addLease (l : DeviceKVPageLease) (hid : t.pool.id = s.pool.id)
    (hvec : t.vectors = s.vectors) (hset : t.leases = s.leases ++ [l]) :
    t.live = s.live + own s.pool.id l := by
  unfold live
  rw [hid, hvec, hset, liveOf_append, liveOf_cons, liveOf_nil, add_zero, add_assoc]

/-- A rewritten reservation still belongs to the pool, or to nobody. -/
theorem owned_set (hs : WellFormed s) (hid : t.pool.id = s.pool.id)
    (ht : t.reservations = s.reservations.set k r')
    (hr' : (r'.owner = none ∧ r'.pages = 0) ∨ r'.owner = some s.pool.id) :
    ∀ r ∈ t.reservations, (r.owner = none ∧ r.pages = 0) ∨ r.owner = some t.pool.id := by
  intro r hr
  rw [ht] at hr
  rw [hid]
  rcases List.mem_or_eq_of_mem_set hr with hr | rfl
  · exact hs.owned r hr
  · exact hr'

theorem owned_same (hs : WellFormed s) (hid : t.pool.id = s.pool.id)
    (ht : t.reservations = s.reservations) :
    ∀ r ∈ t.reservations, (r.owner = none ∧ r.pages = 0) ∨ r.owner = some t.pool.id := by
  rw [ht, hid]
  exact hs.owned

theorem WellFormed.of_accounts {R : Nat} (hacc : Accounts t.pool L R) (hL : t.live = L)
    (hR : t.reservedTotal = R)
    (howned : ∀ r ∈ t.reservations, (r.owner = none ∧ r.pages = 0) ∨ r.owner = some t.pool.id) :
    WellFormed t :=
  ⟨hL ▸ hR ▸ hacc, howned⟩

theorem WellFormed.empty (hs : WellFormed s) (hr : s.reservations[k]? = some r)
    (hnone : r.owner = none) : r.pages = 0 := by
  rcases hs.owned r (List.mem_of_getElem? hr) with h | h
  · exact h.2
  · rw [hnone] at h
    cases h

end Lists

/-! ## Commands -/

variable {s : PoolSystem}

@[simp] theorem wp_onPool {α : Type} {P : Post PoolSystem α} (m : Eff DeviceKVPagePool α) :
    wp (onPool m) P s ↔
      wp m ⟨fun a p => P.ok a { s with pool := p }, fun e p => P.throw e { s with pool := p },
        P.dead⟩ s.pool :=
  wp_zoom _ _ m

section Commands

variable {s : PoolSystem} (hs : WellFormed s)
include hs

variable {i R k j : Nat} {r r' : DeviceKVPageReservation}

theorem wp_withItem {α : Type} {list : PoolSystem → List α} {k : α → Eff PoolSystem Unit}
    (h : ∀ a, (list s)[i]? = some a → wp (k a) (keeps WellFormed) s) :
    wp (withItem list i k) (keeps WellFormed) s := by
  unfold withItem
  simp only [wp_bind, wp_get]
  cases hget : (list s)[i]? with
  | none => exact hs
  | some a => exact h a hget

theorem run_reserve (pages : Nat) : wp (run (.reserve pages)) (keeps WellFormed) s := by
  unfold run
  simp only [wp_bind, wp_onPool]
  refine wp_reserve hs.accounts pages hs fun q _ hsame hacc => ?_
  refine .of_accounts hacc (live_eq hsame.id rfl rfl) (by simp [reservedTotal]) ?_
  exact forall_mem_push (owned_same hs hsame.id rfl) (.inr (congrArg some hsame.id.symm))

theorem run_makeEmptyReservation : wp (run .makeEmptyReservation) (keeps WellFormed) s := by
  refine ⟨?_, ?_⟩
  · have htotal : reservedTotal { s with
        reservations := s.reservations ++ [s.pool.makeEmptyReservation] } = s.reservedTotal := by
      simp [reservedTotal, makeEmptyReservation]
    rw [htotal]
    exact hs.accounts
  · exact forall_mem_push hs.owned (.inr rfl)

/-- A reservation is rewritten and the accounts follow. -/
theorem WellFormed.rewrite (hr : s.reservations[k]? = some r) {q : DeviceKVPagePool}
    (hsame : Same s.pool q) (hacc : Accounts q s.live R)
    (hR : R + r.pages = s.reservedTotal + r'.pages)
    (hr' : (r'.owner = none ∧ r'.pages = 0) ∨ r'.owner = some s.pool.id) :
    WellFormed { s with pool := q, reservations := s.reservations.set k r' } := by
  refine .of_accounts hacc (live_eq hsame.id rfl rfl) ?_ (owned_set hs hsame.id rfl hr')
  exact reservedTotal_set hr rfl hR

theorem run_resizeReservation (k n : Nat) :
    wp (run (.resizeReservation k n)) (keeps WellFormed) s := by
  refine wp_withItem hs fun r hr => ?_
  simp only [wp_bind, wp_onPool]
  refine wp_resizeReservation hs.accounts n hs fun q howner hle hsame hacc => ?_
  refine hs.rewrite hr hsame hacc ?_ (.inr howner)
  dsimp only
  omega

theorem run_clearReservation (k : Nat) : wp (run (.clearReservation k)) (keeps WellFormed) s := by
  refine wp_withItem hs fun r hr => ?_
  simp only [wp_bind, wp_onPool]
  have hle := pages_le hr
  refine wp_clearReservation hs.accounts hle (hs.empty hr) fun q hsame hacc => ?_
  refine hs.rewrite hr hsame hacc ?_ ?_
  · dsimp only
    omega
  · exact (hs.owned r (List.mem_of_getElem? hr)).imp (fun h => ⟨h.1, rfl⟩) (fun h => h)

theorem run_dropReservation (k : Nat) : wp (run (.dropReservation k)) (keeps WellFormed) s := by
  refine wp_withItem hs fun r hr => ?_
  simp only [wp_bind, wp_onPool]
  have hle := pages_le hr
  refine wp_dropReservation hs.accounts hle (hs.empty hr) fun q hsame hacc => ?_
  refine hs.rewrite hr hsame hacc ?_ (.inl ⟨rfl, rfl⟩)
  dsimp only
  omega

/-- A vector and a reservation are rewritten together. -/
theorem WellFormed.rewriteVector {v v' : LeaseVector} (hr : s.reservations[k]? = some r)
    (hv : s.vectors[j]? = some v) {q : DeviceKVPagePool} (hsame : Same s.pool q)
    {L : Multiset DeviceKVPageLease} (hacc : Accounts q L R)
    (hL : L + liveOf s.pool.id v.leases = s.live + liveOf s.pool.id v'.leases)
    (hR : R + r.pages = s.reservedTotal + r'.pages) (hr' : r'.owner = some s.pool.id) :
    WellFormed { s with
      pool := q
      reservations := s.reservations.set k r'
      vectors := s.vectors.set j v' } := by
  refine .of_accounts hacc ?_ ?_ (owned_set hs hsame.id rfl (.inr hr'))
  · refine live_setVector hv ?_ ?_ ?_ hL
    exacts [hsame.id, rfl, rfl]
  · exact reservedTotal_set hr rfl hR

theorem run_materialize (k target j : Nat) (pred : Option DeviceKVPageHandle) :
    wp (run (.materialize k target j pred)) (keeps WellFormed) s := by
  refine wp_withItem hs fun r hr => wp_withItem hs fun v hv => ?_
  simp only [wp_bind, wp_onPool]
  have hle := pages_le hr
  refine wp_materialize hs.accounts (fun _ => hle) (fun _ _ _ => hs) ?_
  intro q leases howner hlen hcount hleases hsame hacc
  refine hs.rewriteVector hr hv hsame hacc ?_ ?_ howner
  · have hfresh : liveOf s.pool.id leases = ↑leases := by
      refine liveOf_eq_coe fun lease hl => ?_
      rw [← hsame.id]
      exact (hacc.valid lease (Multiset.mem_add.mpr (.inr hl))).1
    rw [liveOf_append, hfresh, add_assoc, add_comm (leases : Multiset DeviceKVPageLease)]
  · dsimp only
    omega

omit hs in
/-- What is live apart from the `j`-th vector. -/
theorem live_withoutVector {v : LeaseVector} (hv : s.vectors[j]? = some v) :
    live { s with vectors := s.vectors.set j {} } + liveOf s.pool.id v.leases = s.live := by
  have hset := sum_map_set hv {} fun v => liveOf s.pool.id v.leases
  rw [liveOf_nil, add_zero] at hset
  unfold live
  rw [add_right_comm, hset]

omit hs in
/-- What is live apart from the `i`-th single lease. -/
theorem live_withoutLease {lease : DeviceKVPageLease} (hl : s.leases[i]? = some lease) :
    live { s with leases := s.leases.set i {} } + own s.pool.id lease = s.live := by
  have hset := sum_map_set hl {} (own s.pool.id)
  rw [own_empty, add_zero] at hset
  unfold live liveOf
  rw [add_assoc, hset]

theorem run_dematerialize (k target j : Nat) :
    wp (run (.dematerialize k target j)) (keeps WellFormed) s := by
  refine wp_withItem hs fun r hr => wp_withItem hs fun v hv => ?_
  simp only [wp_bind, wp_onPool]
  have hrest := live_withoutVector hv
  refine wp_dematerialize (L := live { s with vectors := s.vectors.set j {} })
    (R := s.reservedTotal)
    (fun hvalid => ?_) (fun _ => hs) ?_
  · rw [← liveOf_eq_coe fun lease hl => (hvalid lease hl).1, hrest]
    exact hs.accounts
  · intro q howner hlen hvalid hsame hacc
    refine hs.rewriteVector hr hv hsame hacc ?_ ?_ howner
    · rw [← hrest, liveOf_eq_coe fun lease hl => (hvalid lease (List.mem_of_mem_take hl)).1]
      exact add_right_comm _ _ _
    · dsimp only
      omega

theorem run_destroyVector (j : Nat) : wp (run (.destroyVector j)) (keeps WellFormed) s := by
  refine wp_withItem hs fun v hv => ?_
  simp only [wp_bind, wp_onPool]
  refine wp_releaseLeases ((live_withoutVector hv).symm ▸ hs.accounts) fun q hsame hacc => ?_
  exact .of_accounts hacc (live_eq hsame.id rfl rfl) rfl (owned_same hs hsame.id rfl)

theorem run_takeLease (j i : Nat) : wp (run (.takeLease j i)) (keeps WellFormed) s := by
  refine wp_withItem hs fun v hv => ?_
  cases hl : v.leases[i]? with
  | none => exact hs
  | some lease =>
    refine .of_accounts hs.accounts ?_ rfl hs.owned
    have helem : liveOf s.pool.id (v.leases.set i {}) + own s.pool.id lease =
        liveOf s.pool.id v.leases :=
      (sum_map_set hl {} (own s.pool.id)).trans (add_zero _)
    have hset := sum_map_set hv { v with leases := v.leases.set i {} }
      fun v => liveOf s.pool.id v.leases
    rw [← helem, ← add_assoc, add_right_comm] at hset
    have hsum := add_right_cancel hset
    show (((s.vectors.set j { v with leases := v.leases.set i {} }).map
      fun v => liveOf s.pool.id v.leases).sum + liveOf s.pool.id (s.leases ++ [lease])) = s.live
    rw [liveOf_append, liveOf_cons, liveOf_nil, add_zero, add_comm (liveOf s.pool.id s.leases),
      ← add_assoc, hsum]
    rfl

theorem run_materializeOne (k : Nat) : wp (run (.materializeOne k)) (keeps WellFormed) s := by
  refine wp_withItem hs fun r hr => ?_
  simp only [wp_bind, wp_onPool]
  have hle := pages_le hr
  refine wp_materializeOne hs.accounts (fun _ => hle) (fun _ => hs)
    fun q lease howner hpos hsame hacc => ?_
  refine .of_accounts hacc ?_ ?_ (owned_set hs hsame.id rfl (.inr howner))
  · have howns : lease.owner = some s.pool.id := by
      rw [← hsame.id]
      exact (hacc.valid lease (Multiset.mem_cons_self _ _)).1
    rw [← Multiset.singleton_add, add_comm, ← own_of_owner howns]
    exact live_addLease lease hsame.id rfl rfl
  · refine reservedTotal_set hr rfl ?_
    dsimp only
    omega

theorem run_dematerializeOne (k i : Nat) :
    wp (run (.dematerializeOne k i)) (keeps WellFormed) s := by
  refine wp_withItem hs fun r hr => wp_withItem hs fun lease hl => ?_
  simp only [wp_bind, wp_onPool]
  refine wp_dematerializeOne (L := live { s with leases := s.leases.set i {} })
    (R := s.reservedTotal) (fun hvalid => ?_) (fun _ => hs) ?_
  · rw [← Multiset.singleton_add, add_comm, ← own_of_owner hvalid.1, live_withoutLease hl]
    exact hs.accounts
  · intro q howner _ _ hsame hacc
    refine .of_accounts hacc (live_eq hsame.id rfl rfl) ?_ (owned_set hs hsame.id rfl (.inr howner))
    refine reservedTotal_set hr rfl ?_
    dsimp only
    omega

theorem run_releaseLease (i : Nat) : wp (run (.releaseLease i)) (keeps WellFormed) s := by
  refine wp_withItem hs fun lease hl => ?_
  simp only [wp_bind, wp_onPool]
  have hrest := live_withoutLease hl
  by_cases howner : lease.owner = some s.pool.id
  · rw [own_of_owner howner, add_comm, Multiset.singleton_add] at hrest
    refine wp_releaseLease (hrest ▸ hs.accounts) fun q hsame hacc => ?_
    exact .of_accounts hacc (live_eq hsame.id rfl rfl) rfl (owned_same hs hsame.id rfl)
  · rw [own, if_neg howner, add_zero] at hrest
    refine wp_releaseLease_stale (fun hv => howner hv.1) ?_
    exact .of_accounts hs.accounts hrest rfl hs.owned

end Commands

theorem wellFormed_fresh (h : Fresh s) : WellFormed s := by
  obtain ⟨id, n, pool, hinit, rfl⟩ := h
  exact ⟨accounts_init hinit, by simp⟩

theorem reach_wellFormed (h : Reach Fresh run (fun _ _ => True) s) : WellFormed s := by
  refine h.inv (fun _ => wellFormed_fresh) fun c s hs _ => ?_
  cases c with
  | reserve pages => exact run_reserve hs pages
  | makeEmptyReservation => exact run_makeEmptyReservation hs
  | resizeReservation r n => exact run_resizeReservation hs r n
  | clearReservation r => exact run_clearReservation hs r
  | dropReservation r => exact run_dropReservation hs r
  | newVector capacity =>
    refine .of_accounts hs.accounts ?_ rfl hs.owned
    simp [live, liveOf_nil]
  | materialize r target v pred => exact run_materialize hs r target v pred
  | materializeOne r => exact run_materializeOne hs r
  | dematerialize r target v => exact run_dematerialize hs r target v
  | dematerializeOne r l => exact run_dematerializeOne hs r l
  | releaseLease l => exact run_releaseLease hs l
  | destroyVector v => exact run_destroyVector hs v
  | takeLease v k => exact run_takeLease hs v k

/-! ## The invariant -/

/-- The runs are sorted, not empty and not adjacent, and cover the pages that are not allocated;
    the counters count the live leases and the pages of the live reservations. -/
structure PoolInvariant (s : PoolSystem) : Prop where
  runsSorted : s.pool.freePageRuns.Pairwise fun a b => a.start < b.start
  runsNonempty : ∀ run ∈ s.pool.freePageRuns, 0 < run.size
  runsApart : s.pool.freePageRuns.Pairwise fun a b => a.stop < b.start
  covers : ∀ x, (∃ run ∈ s.pool.freePageRuns, run.Has x) ↔
    x < s.pool.capacityPages ∧ s.pool.pageAllocated x = false
  allocated : s.pool.allocatedPages = s.live.card
  current : ∀ lease ∈ s.live, s.pool.validHandle lease
  distinct : (s.live.map (·.index)).Nodup
  reserved : s.pool.reservedPages =
    ((s.reservations.filter (·.owner = some s.pool.id)).map (·.pages)).sum
  room : s.pool.allocatedPages + s.pool.reservedPages ≤ s.pool.capacityPages

theorem WellFormed.sum_live (hs : WellFormed s) :
    ((s.reservations.filter (·.owner = some s.pool.id)).map (·.pages)).sum = s.reservedTotal := by
  have howned := hs.owned
  unfold reservedTotal
  generalize s.reservations = rs at howned ⊢
  induction rs with
  | nil => rfl
  | cons r rs ih =>
    have hrest := ih fun r' hr' => howned r' (by simp [hr'])
    rcases howned r (by simp) with ⟨hnone, hzero⟩ | hsome
    · rw [List.filter_cons_of_neg (by simp [hnone]), hrest, List.map_cons, List.sum_cons, hzero,
        Nat.zero_add]
    · rw [List.filter_cons_of_pos (by simp [hsome]), List.map_cons, List.sum_cons, hrest,
        List.map_cons, List.sum_cons]

theorem WellFormed.poolInvariant (hs : WellFormed s) : PoolInvariant s := by
  have hacc := hs.accounts
  refine ⟨hacc.canonical.apart.imp fun hlt => ?_, hacc.canonical.nonempty, hacc.canonical.apart,
    hacc.free, hacc.allocated, hacc.valid, hacc.distinct, hacc.reserved.trans hs.sum_live.symm,
    hacc.room⟩
  unfold Span.stop at hlt
  omega

/-- In every reached state the pool is accounted for, and materializing against a reservation
    neither reports a violated reservation nor leaves the list of free runs. -/
theorem pool_accounted (s : PoolSystem) (h : Reach Fresh run (fun _ _ => True) s) :
    PoolInvariant s ∧ ∀ r ∈ s.reservations,
        (∀ target v pred, materialize r target v pred s.pool ≠ .dead ∧
          ∀ p, materialize r target v pred s.pool ≠
            .throw (.logicError "Paged KV reservation invariant was violated") p) ∧
        materializeOne r s.pool ≠ .dead ∧
        ∀ p, materializeOne r s.pool ≠
          .throw (.logicError "Paged KV reservation invariant was violated") p := by
  have hs := reach_wellFormed h
  refine ⟨hs.poolInvariant, fun r hr => ?_⟩
  have hle : r.pages ≤ s.reservedTotal := List.le_sum_of_mem (List.mem_map_of_mem hr)
  have hmany : ∀ target v pred, wp (materialize r target v pred) ⟨fun _ _ => True,
      fun e _ => e ≠ .logicError "Paged KV reservation invariant was violated", False⟩ s.pool :=
    fun target v pred => wp_materialize hs.accounts (fun _ => hle) (fun _ _ he => he)
      fun _ _ _ _ _ _ _ _ => trivial
  have hone : wp (materializeOne r) ⟨fun _ _ => True,
      fun e _ => e ≠ .logicError "Paged KV reservation invariant was violated", False⟩ s.pool :=
    wp_materializeOne hs.accounts (fun _ => hle) (fun _ => by simp) fun _ _ _ _ _ _ => trivial
  refine ⟨fun target v pred => ⟨?_, fun p => ?_⟩, ?_, fun p => ?_⟩
  · exact wp_not_dead (hmany target v pred) (fun h => h)
  · exact wp_never (hmany target v pred) fun _ hne => hne rfl
  · exact wp_not_dead hone (fun h => h)
  · exact wp_never hone fun _ hne => hne rfl

def smallPool : PoolSystem where
  pool := {
    id := 0
    pageGroupCount := 4
    freePageRuns := [⟨0, 4⟩]
    pageGenerations := fun _ => 1
    pageAllocated := fun _ => false
    allocatedPages := 0
    reservedPages := 0 }

theorem smallPool_fresh : smallPool.Fresh := ⟨0, 4, _, rfl, rfl⟩

/-- Materialize three of four reserved pages and return the first one alone. -/
def returnFirst : List Command :=
  [.reserve 4, .newVector 4, .materialize 0 3 0 none, .takeLease 0 0, .releaseLease 0]

theorem returnFirst_accounted :
    ∃ s : PoolSystem, (s.pool.freePageRuns, s.pool.allocatedPages, s.pool.reservedPages) =
        ([⟨0, 1⟩, ⟨3, 1⟩], 2, 1) ∧
      PoolInvariant s ∧
      ∀ r ∈ s.reservations, (∀ target v pred, materialize r target v pred s.pool ≠ .dead ∧
          ∀ p, materialize r target v pred s.pool ≠
            .throw (.logicError "Paged KV reservation invariant was violated") p) ∧
        materializeOne r s.pool ≠ .dead ∧
        ∀ p, materializeOne r s.pool ≠
          .throw (.logicError "Paged KV reservation invariant was violated") p := by
  have hrun : (trace run (fun _ _ => True) returnFirst smallPool).map (fun s =>
      (s.pool.freePageRuns, s.pool.allocatedPages, s.pool.reservedPages)) =
      some ([⟨0, 1⟩, ⟨3, 1⟩], 2, 1) := by rfl
  obtain ⟨s, hreach, hstate⟩ := Reach.of_trace_map smallPool_fresh hrun
  exact ⟨s, hstate, pool_accounted s hreach⟩

end PoolSystem

end Ninfer.DeviceKVPagePool
