/-
  Accounting of `DeviceKVPagePool`: `Accounts p L R` says that the pool's free runs, flags and
  counters are those of the live leases `L` and of `R` reserved pages.

  One specification for each operation follows, in terms of `L` and `R`: what it returns, what it
  may throw, and what the accounts are afterwards. None of them can reach `std::terminate` or
  run past the list of free runs. The owners of leases and reservations use these
  specifications; `PoolRuns` puts them together for clients that hold leases in vectors.
-/
import Ninfer.Lib.Tally
import Ninfer.Core.DeviceKVPagePool

namespace Ninfer.DeviceKVPagePool

open Lib Function

/-! ## Coalescing -/

/-- The four-way join is the insertion of a one-page run. -/
theorem freePage_eq_insert (runs : List Span) (index : Nat) :
    freePage runs index = Spans.insert runs ⟨index, 1⟩ := by
  have hone : Span.stop ⟨index, 1⟩ = index + 1 := rfl
  unfold freePage Spans.insert Spans.joinNext
  dsimp only
  cases hl : (runs.takeWhile (·.start < index)).getLast? with
  | none =>
    cases hr : runs.dropWhile (·.start < index) with
    | nil => rfl
    | cons right rest => simp [hone, Nat.add_comm right.size]
  | some left =>
    cases hr : runs.dropWhile (·.start < index) with
    | nil => rfl
    | cons right rest =>
      by_cases hleft : left.stop = index
      · have hstop : Span.stop ⟨left.start, left.size + 1⟩ = index + 1 := by
          unfold Span.stop at *
          dsimp only
          omega
        simp [hleft, hstop, Nat.add_assoc]
      · simp [hleft, hone, Nat.add_comm right.size]

/-! ## The accounts -/

/-- The pool's state is that of the live leases `L` and `R` reserved pages. -/
structure Accounts (p : DeviceKVPagePool) (L : Multiset DeviceKVPageLease) (R : Nat) : Prop where
  canonical : Spans.Canonical p.freePageRuns
  free : ∀ x, Spans.Covered p.freePageRuns x ↔ x < p.capacityPages ∧ p.pageAllocated x = false
  balance : Spans.total p.freePageRuns + p.allocatedPages = p.capacityPages
  allocated : p.allocatedPages = L.card
  valid : ∀ lease ∈ L, p.validHandle lease
  distinct : (L.map (·.index)).Nodup
  reserved : p.reservedPages = R
  room : p.allocatedPages + p.reservedPages ≤ p.capacityPages
  bounded : p.capacityPages ≤ 2 ^ 31 - 1

variable {p : DeviceKVPagePool} {L : Multiset DeviceKVPageLease} {R : Nat}

variable {id n count i : Nat} {runs : List Span} {lease : DeviceKVPageLease}
  {leases : List DeviceKVPageLease} {P : Post DeviceKVPagePool Bool} {r : DeviceKVPageReservation}

theorem accounts_init (h : init id n = .ok p) : Accounts p 0 0 := by
  unfold init at h
  split at h
  · cases h
  next hn =>
    obtain rfl := Except.ok.inj h
    push Not at hn
    refine ⟨?_, ?_, by simp [capacityPages], by simp, by simp, by simp, rfl, Nat.zero_le _, hn.2⟩
    · exact Spans.canonical_cons.mpr ⟨Nat.pos_of_ne_zero hn.1, by simp, Spans.canonical_nil⟩
    · intro x
      simp [Span.Has, Span.stop, capacityPages]

/-- `q` is the pool `p` at another time. -/
structure Same (p q : DeviceKVPagePool) : Prop where
  id : q.id = p.id
  capacity : q.pageGroupCount = p.pageGroupCount

theorem Same.refl (p : DeviceKVPagePool) : Same p p := ⟨rfl, rfl⟩

theorem Same.trans {q r : DeviceKVPagePool} (h₁ : Same p q) (h₂ : Same q r) : Same p r :=
  ⟨h₂.id.trans h₁.id, h₂.capacity.trans h₁.capacity⟩

/-- Only the reserved pages change. -/
theorem Accounts.rereserve (h : Accounts p L R) (hroom : p.allocatedPages + n ≤ p.capacityPages) :
    Accounts { p with reservedPages := n } L n :=
  { h with reserved := rfl, room := hroom }

/-! ## Reservations -/

section Reservations

variable (h : Accounts p L R)
include h

theorem wp_reserve {P : Post DeviceKVPagePool (Option DeviceKVPageReservation)} (pages : Nat)
    (hnone : P.ok none p)
    (hsome : ∀ q, 0 < pages → Same p q → Accounts q L (R + pages) →
      P.ok (some ⟨some p.id, pages⟩) q) :
    wp (reserve pages) P p := by
  unfold reserve
  simp only [wp_bind, wp_get, wp_ite, wp_pure, wp_modify]
  refine ⟨fun _ => hnone, fun hguard => ?_⟩
  push Not at hguard
  have hfits : p.allocatedPages + (p.reservedPages + pages) ≤ p.capacityPages := by
    have hle := hguard.2
    have hroom := h.room
    unfold availablePages at hle
    omega
  refine hsome _ (Nat.pos_of_ne_zero hguard.1) ⟨rfl, rfl⟩ ?_
  rw [← h.reserved]
  exact h.rereserve hfits

variable {P : Post DeviceKVPagePool DeviceKVPageReservation} {r : DeviceKVPageReservation}

theorem wp_resizeReservation (n : Nat) (hthrow : P.throw .badAlloc p)
    (hok : ∀ q, r.owner = some p.id → r.pages ≤ R → Same p q → Accounts q L (R - r.pages + n) →
      P.ok { r with pages := n } q) : wp (resizeReservation r n) P p := by
  unfold resizeReservation
  simp only [wp_bind, wp_get, wp_ite, wp_raise, wp_pure, wp_modify]
  refine ⟨fun _ => hthrow, fun hcan => ?_⟩
  rw [not_not] at hcan
  obtain ⟨howner, hle, hfits⟩ := hcan
  rw [h.reserved] at hle hfits
  refine hok _ howner hle ⟨rfl, rfl⟩ ?_
  rw [← h.reserved]
  refine h.rereserve ?_
  rw [h.reserved]
  omega

theorem wp_releaseReservation {P : Post DeviceKVPagePool Unit} {pages : Nat} (hle : pages ≤ R)
    (hok : ∀ q, Same p q → Accounts q L (R - pages) → P.ok () q) :
    wp (releaseReservation pages) P p := by
  unfold releaseReservation
  have hnot : ¬ pages > p.reservedPages := by
    rw [h.reserved]
    omega
  simp only [wp_bind, wp_get, wp_ite, wp_die, wp_modify, hnot, false_imp_iff, true_and,
    not_false_eq_true, true_imp_iff]
  refine hok _ ⟨rfl, rfl⟩ ?_
  rw [← h.reserved]
  refine h.rereserve ?_
  have hroom := h.room
  omega

/-- Both ways to empty a reservation give its pages back. -/
theorem wp_clearReservation (hle : r.pages ≤ R) (hempty : r.owner = none → r.pages = 0)
    (hok : ∀ q, Same p q → Accounts q L (R - r.pages) → P.ok { r with pages := 0 } q) :
    wp (clearReservation r) P p := by
  unfold clearReservation
  simp only [wp_ite, wp_bind, wp_pure]
  refine ⟨fun hguard => ?_, fun _ => wp_releaseReservation h hle hok⟩
  have hzero : r.pages = 0 := hguard.elim hempty fun h => h
  have hsame : { r with pages := 0 } = r := by
    rw [← hzero]
  rw [← hsame]
  refine hok p (Same.refl p) ?_
  rw [hzero, Nat.sub_zero]
  exact h

theorem wp_dropReservation (hle : r.pages ≤ R) (hempty : r.owner = none → r.pages = 0)
    (hok : ∀ q, Same p q → Accounts q L (R - r.pages) → P.ok {} q) :
    wp (dropReservation r) P p := by
  unfold dropReservation
  simp only [wp_ite, wp_bind, wp_pure]
  refine ⟨fun hnone => ?_, fun _ => wp_releaseReservation h hle hok⟩
  have hzero := hempty hnone
  have hsame : r = {} := by
    cases r
    simp_all
  rw [hsame]
  refine hok p (Same.refl p) ?_
  rw [hzero, Nat.sub_zero]
  exact h

end Reservations

/-! ## Free runs -/

/-- The points of a whole first run, then those taken from the rest. -/
theorem taken_cons {run : Span} {rest : List Span} {pages : List Nat}
    (hc : Spans.Canonical (run :: rest)) (h : Spans.Taken rest pages runs) :
    Spans.Taken (run :: rest) (List.range' run.start run.size ++ pages) runs := by
  obtain ⟨-, hfar, -⟩ := Spans.canonical_cons.mp hc
  have hrun : ∀ x, x ∈ List.range' run.start run.size ↔ run.Has x := fun x => List.mem_range'_1
  have hapart : ∀ x, run.Has x → ¬ Spans.Covered rest x := by
    rintro x hx ⟨b, hb, hbx⟩
    have := hfar b hb
    unfold Span.Has at hx hbx
    omega
  refine ⟨?_, ?_, h.canonical, ?_, ?_⟩
  · refine List.nodup_append.mpr ⟨List.nodup_range', h.nodup, ?_⟩
    rintro x hx y hy rfl
    exact hapart x ((hrun x).mp hx) (h.covered x hy)
  · intro x hx
    rw [Spans.covered_cons, ← hrun]
    exact (List.mem_append.mp hx).imp (fun h => h) (h.covered x)
  · intro x
    rw [h.rest, Spans.covered_cons, List.mem_append, hrun]
    have := hapart x
    tauto
  · have := h.total
    rw [List.length_append, List.length_range', Spans.total_cons]
    omega

/-- The gathering loop ends inside the list when the list covers enough pages. -/
theorem gather_spec (hc : Spans.Canonical runs) (hn : n ≤ Spans.total runs) :
    ∃ pages left, gather runs n = some (pages, left) ∧ pages.length = n ∧
      Spans.Taken runs pages left := by
  induction runs generalizing n with
  | nil =>
    have hzero : n = 0 := by simpa using hn
    subst hzero
    exact ⟨[], [], rfl, rfl, Spans.taken_nil hc⟩
  | cons run rest ih =>
    unfold gather
    by_cases hzero : n = 0
    · subst hzero
      exact ⟨[], run :: rest, rfl, rfl, Spans.taken_nil hc⟩
    · by_cases hall : run.size ≤ n
      · have hrest : n - run.size ≤ Spans.total rest := by
          rw [Spans.total_cons] at hn
          omega
        obtain ⟨pages, left, heq, hlen, htaken⟩ := ih (Spans.canonical_cons.mp hc).2.2 hrest
        refine ⟨List.range' run.start run.size ++ pages, left, ?_, ?_, taken_cons hc htaken⟩
        · simp [hzero, hall, heq]
        · rw [List.length_append, List.length_range', hlen]
          omega
      · have hcut : Spans.cut run run.start n = [⟨run.start + n, run.size - n⟩] := by
          have hne : ¬ run.start + n = run.stop := by
            unfold Span.stop
            omega
          simp [Spans.cut, hne]
        have hstop : run.start + n ≤ run.stop := by
          unfold Span.stop
          omega
        have htaken : Spans.Taken ([] ++ run :: rest) (List.range' run.start n)
            ([] ++ Spans.cut run run.start n ++ rest) :=
          Spans.taken_cut hc (Nat.le_refl run.start) hstop (Nat.pos_of_ne_zero hzero)
        rw [hcut] at htaken
        refine ⟨List.range' run.start n, ⟨run.start + n, run.size - n⟩ :: rest, ?_,
          List.length_range', htaken⟩
        simp [hzero, hall]

theorem preferredRun_spec {preferred : Nat} (h : preferredRun runs preferred count = some i) :
    ∃ run, runs[i]? = some run ∧ run.start ≤ preferred ∧ preferred + count ≤ run.stop := by
  unfold preferredRun at h
  dsimp only at h
  split at h
  · cases h
  · split at h
    · cases h
    next candidate hget =>
      split at h
      next hin =>
        obtain rfl := Option.some.inj h
        exact ⟨candidate, hget, hin⟩
      · cases h

/-- Whichever way it was found, the range lies in the selected run. -/
theorem selectRun_spec {preferred : Option Nat} {start : Nat}
    (h : selectRun runs preferred count = some (i, start)) :
    ∃ run, runs[i]? = some run ∧ run.start ≤ start ∧ start + count ≤ run.stop := by
  unfold selectRun at h
  split at h
  next selected hsel =>
    obtain rfl := Option.some.inj h
    obtain ⟨q, -, hq⟩ := Option.bind_eq_some_iff.mp hsel
    obtain ⟨j, hj, heq⟩ := Option.map_eq_some_iff.mp hq
    obtain ⟨rfl, rfl⟩ := Prod.mk.inj heq
    exact preferredRun_spec hj
  next =>
    obtain ⟨j, hj, hmap⟩ := Option.bind_eq_some_iff.mp h
    obtain ⟨run, hrun, heq⟩ := Option.map_eq_some_iff.mp hmap
    obtain ⟨rfl, rfl⟩ := Prod.mk.inj heq
    obtain ⟨hlt, hfit, -⟩ := List.findIdx?_eq_some_iff_getElem.mp hj
    obtain ⟨_, rfl⟩ := List.getElem?_eq_some_iff.mp hrun
    refine ⟨_, hrun, Nat.le_refl _, ?_⟩
    unfold Span.stop
    have : count ≤ runs[j].size := by simpa using hfit
    omega

/-! ## Leases -/

def leaseOf (p : DeviceKVPagePool) (page : Nat) : DeviceKVPageLease :=
  ⟨some p.id, page, p.pageGenerations page⟩

def marked (p : DeviceKVPagePool) (pages : List Nat) (x : Nat) : Bool :=
  decide (x ∈ pages) || p.pageAllocated x

theorem wp_appendPages {P : Post DeviceKVPagePool (List DeviceKVPageLease)} (pages : List Nat)
    (h : P.ok (pages.map p.leaseOf) { p with pageAllocated := p.marked pages }) :
    wp (Eff.collect pages appendPage) P p := by
  induction pages generalizing p P with
  | nil =>
    have hsame : p.marked [] = p.pageAllocated := by
      funext x
      simp [marked]
    exact h
  | cons page pages ih =>
    simp only [wp_collect_cons, appendPage, wp_bind, wp_get, wp_modify, wp_pure]
    refine ih ?_
    have hmark : marked { p with pageAllocated := update p.pageAllocated page true } pages =
        p.marked (page :: pages) := by
      funext x
      by_cases hx : x = page
      · subst hx
        simp [marked]
      · simp [marked, hx]
    rw [hmark]
    exact h

/-- Free pages become leases against the reserved ones. -/
theorem Accounts.take (h : Accounts p L R) {pages : List Nat}
    (ht : Spans.Taken p.freePageRuns pages runs) (hle : pages.length ≤ R) :
    Accounts { p with
      freePageRuns := runs
      pageAllocated := p.marked pages
      allocatedPages := p.allocatedPages + pages.length
      reservedPages := p.reservedPages - pages.length }
      (L + (pages.map p.leaseOf : List DeviceKVPageLease)) (R - pages.length) := by
  have hfree : ∀ x ∈ pages, x < p.capacityPages ∧ p.pageAllocated x = false :=
    fun x hx => (h.free x).mp (ht.covered x hx)
  have hroom := h.room
  have hreserved := h.reserved
  refine ⟨ht.canonical, ?_, ?_, ?_, ?_, ?_, ?_, ?_, h.bounded⟩
  · intro x
    rw [ht.rest, h.free]
    simp only [marked, capacityPages]
    by_cases hx : x ∈ pages <;> simp [hx]
  · have := ht.total
    have := h.balance
    simp only [capacityPages] at *
    omega
  · simp [h.allocated]
  · intro lease hl
    rcases Multiset.mem_add.mp hl with hl | hl
    · obtain ⟨ho, hi, ha, hg⟩ := h.valid lease hl
      exact ⟨ho, hi, by simp [marked, ha], hg⟩
    · obtain ⟨page, hpage, rfl⟩ := List.mem_map.mp (Multiset.mem_coe.mp hl)
      exact ⟨rfl, (hfree page hpage).1, by simp [marked, leaseOf, hpage], rfl⟩
  · rw [Multiset.map_add, Multiset.nodup_add]
    refine ⟨h.distinct, ?_, ?_⟩
    · rw [Multiset.map_coe, Multiset.coe_nodup, List.map_map]
      simpa [leaseOf, Function.comp_def] using ht.nodup
    · rw [Multiset.disjoint_left]
      intro x hx hx'
      obtain ⟨lease, hl, rfl⟩ := Multiset.mem_map.mp hx
      obtain ⟨lease', hl', heq⟩ := Multiset.mem_map.mp hx'
      obtain ⟨page, hpage, rfl⟩ := List.mem_map.mp (Multiset.mem_coe.mp hl')
      have hallocated := (h.valid lease hl).2.2.1
      rw [← heq] at hallocated
      have := (hfree page hpage).2
      simp only [leaseOf] at hallocated
      rw [this] at hallocated
      cases hallocated
  · simp [hreserved]
  · simp only [capacityPages] at *
    omega

/-- What `materialize` checks. -/
structure Fits (p : DeviceKVPagePool) (r : DeviceKVPageReservation) (target : Nat)
    (v : LeaseVector) (pred : Option DeviceKVPageHandle) : Prop where
  owner : r.owner = some p.id
  extent : v.leases.length ≤ target
  reserved : target - v.leases.length ≤ r.pages
  capacity : target ≤ v.capacity
  live : ∀ page ∈ v.leases, p.validHandle page
  predecessor : ∀ h ∈ pred, p.validHandle h

section Materialize

variable (h : Accounts p L R)
include h

/-- Contiguous or gathered, `count` free pages are taken. -/
theorem wp_takePages {P : Post DeviceKVPagePool (List DeviceKVPageLease)} {preferred : Option Nat}
    {count : Nat} (hpos : 0 < count) (hle : count ≤ R)
    (hok : ∀ q leases, leases.length = count → Same p q → Accounts { q with
        allocatedPages := q.allocatedPages + count
        reservedPages := q.reservedPages - count } (L + (leases : List DeviceKVPageLease))
        (R - count) → P.ok leases q) :
    wp (takePages preferred count) P p := by
  unfold takePages
  simp only [wp_bind, wp_get]
  split
  next selected start hsel =>
    obtain ⟨run, hget, hstart, hstop⟩ := selectRun_spec hsel
    obtain ⟨hsplit, hlen⟩ := Spans.split_at hget
    have hcan := h.canonical
    rw [hsplit] at hcan
    have htaken := Spans.taken_cut hcan hstart hstop hpos
    rw [← hsplit] at htaken
    have hin : ¬ (count = 0 ∨ start < run.start ∨ run.stop < start + count) := by omega
    rw [wp_bind]
    refine wp_appendPages _ ?_
    simp only [consumeFreeRun, wp_bind, wp_get, hget, wp_ite, hin, wp_die, wp_modify, wp_pure,
      false_imp_iff, true_and, not_false_eq_true, true_imp_iff]
    refine hok _ _ (by simp) ⟨rfl, rfl⟩ ?_
    have := h.take htaken (by simpa using hle)
    simpa using this
  next =>
    have htotal : count ≤ Spans.total p.freePageRuns := by
      have hroom := h.room
      have hbalance := h.balance
      have hreserved := h.reserved
      omega
    obtain ⟨pages, left, hgather, hlen, htaken⟩ := gather_spec h.canonical htotal
    rw [hgather, wp_bind]
    refine wp_appendPages _ ?_
    refine hok _ _ (by simpa using hlen) ⟨rfl, rfl⟩ ?_
    have := h.take htaken (hlen ▸ hle)
    simpa [hlen] using this

variable {r : DeviceKVPageReservation}

theorem wp_materialize {P : Post DeviceKVPagePool (DeviceKVPageReservation × LeaseVector)}
    {target : Nat} {v : LeaseVector} {pred : Option DeviceKVPageHandle}
    (hle : r.owner = some p.id → r.pages ≤ R)
    (hthrow : ¬ Fits p r target v pred →
      ∀ e, e ≠ .logicError "Paged KV reservation invariant was violated" → P.throw e p)
    (hok : ∀ q leases, r.owner = some p.id → v.leases.length ≤ target →
      target - v.leases.length ≤ r.pages → leases.length = target - v.leases.length → Same p q →
      Accounts q (L + (leases : List DeviceKVPageLease)) (R - (target - v.leases.length)) →
      P.ok ({ r with pages := r.pages - (target - v.leases.length) },
        { v with leases := v.leases ++ leases }) q) : wp (materialize r target v pred) P p := by
  unfold materialize
  simp only [wp_bind, wp_get, wp_ite, wp_raise, wp_pure]
  refine ⟨fun hbad => hthrow (fun hf => ?_) _ (by simp), fun howner => ?_⟩
  · rcases hbad with hbad | hbad
    · exact hbad hf.owner
    · exact absurd hf.extent (Nat.not_le.mpr hbad)
  push Not at howner
  obtain ⟨howner, hlen⟩ := howner
  refine ⟨fun hbad => hthrow (fun hf => ?_) _ (by simp), fun hcap =>
    ⟨fun hbad => hthrow (fun hf => hbad hf.live) _ (by simp), fun _ => ?_⟩⟩
  · rcases hbad with hbad | hbad
    · exact absurd hf.reserved (Nat.not_le.mpr hbad)
    · exact absurd hf.capacity (Nat.not_le.mpr hbad)
  push Not at hcap
  refine ⟨fun hzero => ?_, fun hcount => ⟨fun hbad => ?_, fun _ =>
    ⟨fun hbad => hthrow (fun hf => ?_) _ (by simp), fun _ => ?_⟩⟩⟩
  · have := hok p [] howner hlen hcap.1 (by simp [hzero]) (Same.refl p) (by simpa [hzero] using h)
    simpa [hzero] using this
  · have hroom := h.room
    have hreserved := h.reserved
    have := hle howner
    omega
  · obtain ⟨x, hx, hstale⟩ := hbad
    exact hstale (hf.predecessor x hx)
  · refine wp_takePages h (Nat.pos_of_ne_zero hcount) (hcap.1.trans (hle howner)) ?_
    intro q leases hleases hsame hacc
    exact hok _ leases howner hlen hcap.1 hleases ⟨hsame.id, hsame.capacity⟩ hacc

theorem wp_materializeOne {P : Post DeviceKVPagePool (DeviceKVPageReservation × DeviceKVPageLease)}
    (hle : r.owner = some p.id → r.pages ≤ R)
    (hthrow : ¬ (r.owner = some p.id ∧ 0 < r.pages) → P.throw
      (.invalidArgument "Paged KV single-page materialization exceeds reservation") p)
    (hok : ∀ q lease, r.owner = some p.id → 0 < r.pages → Same p q →
      Accounts q (lease ::ₘ L) (R - 1) → P.ok ({ r with pages := r.pages - 1 }, lease) q) :
    wp (materializeOne r) P p := by
  unfold materializeOne
  simp only [wp_bind, wp_get, wp_ite, wp_raise]
  refine ⟨fun hbad => hthrow fun hgood => ?_, fun hguard => ?_⟩
  · rcases hbad with hbad | hbad
    · exact hbad hgood.1
    · omega
  push Not at hguard
  obtain ⟨howner, hpages⟩ := hguard
  have hR := hle howner
  have hroom := h.room
  have hbalance := h.balance
  have hreserved := h.reserved
  cases hruns : p.freePageRuns with
  | nil =>
    rw [hruns, Spans.total_nil] at hbalance
    omega
  | cons run rest =>
    have hcan := h.canonical
    rw [hruns] at hcan
    have hsize := (Spans.canonical_cons.mp hcan).1
    have htaken : Spans.Taken ([] ++ run :: rest) (List.range' run.start 1)
        ([] ++ Spans.cut run run.start 1 ++ rest) :=
      Spans.taken_cut hcan (Nat.le_refl _) (Nat.add_le_add_left hsize _) Nat.one_pos
    have hcut : Spans.cut run run.start 1 ++ rest =
        if run.size - 1 = 0 then rest else ⟨run.start + 1, run.size - 1⟩ :: rest := by
      unfold Spans.cut Span.stop
      by_cases hone : run.size = 1
      · simp [hone]
      · have h₁ : ¬ run.size - 1 = 0 := by omega
        have h₂ : ¬ 1 = run.size := by omega
        simp [h₁, h₂]
    rw [List.nil_append, List.nil_append, hcut, ← hruns] at htaken
    have hacc := h.take htaken (by simpa using by omega)
    have hmark : p.marked (List.range' run.start 1) = update p.pageAllocated run.start true := by
      funext x
      by_cases hx : x = run.start
      · subst hx
        simp [marked]
      · simp [marked, hx]
    rw [hmark, List.length_range'] at hacc
    refine hok _ _ howner (Nat.pos_of_ne_zero hpages) ⟨rfl, rfl⟩ ?_
    have hperm : L + ((List.range' run.start 1).map p.leaseOf : List DeviceKVPageLease) =
        p.leaseOf run.start ::ₘ L := by
      simp [← Multiset.singleton_add, Multiset.add_comm]
    rw [hperm] at hacc
    exact hacc

end Materialize

/-! ## Returning leases -/

/-- The lease itself if it is one of the pool `id`, else nothing. -/
def own (id : Nat) (lease : DeviceKVPageLease) : Multiset DeviceKVPageLease :=
  if lease.owner = some id then {lease} else 0

def liveOf (id : Nat) (leases : List DeviceKVPageLease) : Multiset DeviceKVPageLease :=
  (leases.map (own id)).sum

theorem liveOf_append (id : Nat) (l₁ l₂ : List DeviceKVPageLease) :
    liveOf id (l₁ ++ l₂) = liveOf id l₁ + liveOf id l₂ := by
  simp [liveOf]

theorem liveOf_cons (id : Nat) (lease : DeviceKVPageLease) (l : List DeviceKVPageLease) :
    liveOf id (lease :: l) = own id lease + liveOf id l := by
  simp [liveOf]

theorem liveOf_nil (id : Nat) : liveOf id [] = 0 := rfl

theorem own_empty (id : Nat) : own id {} = 0 := rfl

theorem own_of_owner (h : lease.owner = some id) : own id lease = {lease} := if_pos h

theorem liveOf_eq_coe (h : ∀ lease ∈ leases, lease.owner = some id) :
    liveOf id leases = ↑leases := by
  induction leases with
  | nil => rfl
  | cons lease leases ih =>
    rw [liveOf_cons, own_of_owner (h lease (by simp)), ih fun l hl => h l (by simp [hl]),
      Multiset.singleton_add, Multiset.cons_coe]

/-- The page of a live lease becomes free again. -/
theorem Accounts.giveBack (h : Accounts p (lease ::ₘ L) R) : Accounts { p with
      pageAllocated := update p.pageAllocated lease.index false
      pageGenerations := update p.pageGenerations lease.index
        (nextGeneration (p.pageGenerations lease.index))
      freePageRuns := freePage p.freePageRuns lease.index
      allocatedPages := p.allocatedPages - 1 } L R := by
  obtain ⟨-, hlt, hallocated, -⟩ := h.valid lease (Multiset.mem_cons_self _ _)
  have hdistinct := h.distinct
  rw [Multiset.map_cons, Multiset.nodup_cons] at hdistinct
  have hcard := h.allocated
  rw [Multiset.card_cons] at hcard
  have hfresh : ∀ x, Span.Has ⟨lease.index, 1⟩ x → ¬ Spans.Covered p.freePageRuns x := by
    intro x hx hcov
    have hxeq : x = lease.index := by
      unfold Span.Has Span.stop at hx
      dsimp only at hx
      omega
    have := ((h.free x).mp hcov).2
    rw [hxeq, hallocated] at this
    cases this
  have hpos : 0 < (⟨lease.index, 1⟩ : Span).size := Nat.one_pos
  rw [freePage_eq_insert]
  refine ⟨Spans.canonical_insert h.canonical hpos hfresh, ?_, ?_, ?_, ?_, hdistinct.2, h.reserved,
    ?_, h.bounded⟩
  · intro x
    simp only [capacityPages]
    rw [Spans.covered_insert h.canonical hpos hfresh, h.free]
    by_cases hx : x = lease.index
    · subst hx
      simp only [capacityPages] at hlt
      simp [hlt, Span.Has, Span.stop]
    · have hne : ¬ Span.Has ⟨lease.index, 1⟩ x := by
        unfold Span.Has Span.stop
        dsimp only
        omega
      simp [hx, hne, capacityPages]
  · have htotal := Spans.total_insert h.canonical hpos hfresh
    have hbalance := h.balance
    simp only [capacityPages] at *
    omega
  · simp [hcard]
  · intro other hother
    obtain ⟨ho, hi, ha, hg⟩ := h.valid other (Multiset.mem_cons_of_mem hother)
    have hne : other.index ≠ lease.index := by
      intro heq
      exact hdistinct.1 (heq ▸ Multiset.mem_map_of_mem (·.index) hother)
    exact ⟨ho, hi, by simp [update_of_ne hne, ha], by simp [update_of_ne hne, hg]⟩
  · have hroom := h.room
    simp only [capacityPages] at *
    omega

theorem wp_releaseLease (h : Accounts p (lease ::ₘ L) R)
    (hok : ∀ q, Same p q → Accounts q L R → P.ok true q) : wp (releaseLease lease) P p := by
  obtain ⟨-, hlt, hallocated, hgeneration⟩ := h.valid lease (Multiset.mem_cons_self _ _)
  have hcap : ¬ p.capacityPages ≤ lease.index := by omega
  have hcur : ¬ (p.pageAllocated lease.index = false ∨
      p.pageGenerations lease.index ≠ lease.generation) := by
    simp [hallocated, hgeneration]
  unfold releaseLease releasePage
  simp only [wp_bind, wp_get, wp_ite, wp_pure, wp_modify, not_not]
  refine ⟨fun hstale => absurd (h.valid lease (Multiset.mem_cons_self _ _)) hstale, fun _ => ?_⟩
  exact ⟨fun hout => absurd hout hcap, fun _ => ⟨fun hold => absurd hold hcur,
    fun _ => hok _ ⟨rfl, rfl⟩ h.giveBack⟩⟩

theorem wp_releaseLease_stale (hstale : ¬ p.validHandle lease) (hok : P.ok false p) :
    wp (releaseLease lease) P p := by
  unfold releaseLease
  simp only [wp_bind, wp_get, wp_ite, wp_pure]
  exact ⟨fun _ => hok, fun hv => absurd hstale hv⟩

/-- The destructors of a list of leases; an empty one, or one of another pool, does nothing
    here. -/
theorem wp_releaseLeases {P : Post DeviceKVPagePool Unit}
    (h : Accounts p (L + liveOf p.id leases) R) (hok : ∀ q, Same p q → Accounts q L R → P.ok () q) :
    wp (Eff.forEach leases fun page => do let _ ← releaseLease page) P p := by
  induction leases generalizing p with
  | nil => exact hok p (Same.refl p) (by simpa [liveOf_nil] using h)
  | cons lease leases ih =>
    rw [liveOf_cons] at h
    simp only [wp_forEach_cons, wp_bind, wp_pure]
    by_cases howner : lease.owner = some p.id
    · rw [own_of_owner howner, Multiset.singleton_add, Multiset.add_cons] at h
      refine wp_releaseLease h fun q hsame hq => ih ?_ fun r hr hacc => ?_
      · rwa [hsame.id]
      · exact hok r (hsame.trans hr) hacc
    · refine wp_releaseLease_stale (fun hv => howner hv.1) (ih ?_ hok)
      rwa [own, if_neg howner, Multiset.zero_add] at h

/-- Leases given back to the reservation they came from. -/
theorem Accounts.adopt {q : DeviceKVPagePool} {M : Multiset DeviceKVPageLease}
    (h : Accounts p (L + M) R) (hq : Accounts q L R) (hsame : Same p q) :
    Accounts { q with reservedPages := q.reservedPages + M.card } L (R + M.card) := by
  have hfits : q.allocatedPages + (q.reservedPages + M.card) ≤ q.capacityPages := by
    have hroom := h.room
    have hp := h.allocated
    have hq' := hq.allocated
    have hR := h.reserved
    have hR' := hq.reserved
    have hcap := hsame.capacity
    rw [Multiset.card_add] at hp
    simp only [capacityPages] at *
    omega
  have := hq.rereserve hfits
  rwa [hq.reserved] at this ⊢

theorem wp_dematerialize {P : Post DeviceKVPagePool (DeviceKVPageReservation × LeaseVector)}
    {target : Nat} {v : LeaseVector}
    (h : (∀ page ∈ v.leases, p.validHandle page) →
      Accounts p (L + (v.leases : Multiset DeviceKVPageLease)) R) (hthrow : ∀ e, P.throw e p)
    (hok : ∀ q, r.owner = some p.id → target ≤ v.leases.length →
      (∀ page ∈ v.leases, p.validHandle page) → Same p q →
      Accounts q (L + (v.leases.take target : List DeviceKVPageLease))
        (R + (v.leases.length - target)) →
      P.ok ({ r with pages := r.pages + (v.leases.length - target) },
        { v with leases := v.leases.take target }) q) : wp (dematerialize r target v) P p := by
  unfold dematerialize
  simp only [wp_bind, wp_get, wp_ite, wp_raise, wp_pure, wp_modify]
  refine ⟨fun _ => hthrow _, fun hguard => ⟨fun _ => hthrow _, fun hvalid => ?_⟩⟩
  push Not at hguard
  rw [not_not] at hvalid
  have hacc := h hvalid
  have hsplit : (v.leases : Multiset DeviceKVPageLease) =
      (v.leases.take target : List DeviceKVPageLease) +
        (v.leases.drop target : List DeviceKVPageLease) := by
    rw [Multiset.coe_add, List.take_append_drop]
  refine ⟨fun hzero => ?_, fun _ => ⟨fun _ => hthrow _, fun _ => ?_⟩⟩
  · have htake : v.leases.take target = v.leases := List.take_of_length_le (by omega)
    have := hok p hguard.1 hguard.2 hvalid (Same.refl p) (by rw [htake, hzero]; exact hacc)
    simpa [htake, hzero] using this
  · rw [hsplit, ← Multiset.add_assoc] at hacc
    have howners : liveOf p.id (v.leases.drop target) = ↑(v.leases.drop target) :=
      liveOf_eq_coe fun lease hl => (hvalid lease (List.mem_of_mem_drop hl)).1
    refine wp_releaseLeases (howners ▸ hacc) fun q hsame hq => ?_
    have hadopt := hacc.adopt hq hsame
    rw [Multiset.coe_card, List.length_drop] at hadopt
    exact hok _ hguard.1 hguard.2 hvalid ⟨hsame.id, hsame.capacity⟩ hadopt

theorem wp_dematerializeOne {P : Post DeviceKVPagePool DeviceKVPageReservation}
    (h : p.validHandle lease → Accounts p (lease ::ₘ L) R)
    (hthrow : ¬ (r.owner = some p.id ∧ p.validHandle lease ∧ r.pages ≠ maxU32) →
      P.throw (.invalidArgument "Paged KV single-page dematerialization is invalid") p)
    (hok : ∀ q, r.owner = some p.id → p.validHandle lease → r.pages ≠ maxU32 → Same p q →
      Accounts q L (R + 1) → P.ok { r with pages := r.pages + 1 } q) :
    wp (dematerializeOne r lease) P p := by
  unfold dematerializeOne
  simp only [wp_bind, wp_get, wp_ite, wp_raise]
  refine ⟨fun hbad => hthrow fun hgood => ?_, fun hguard => ?_⟩
  · rcases hbad with hbad | hbad | hbad
    exacts [hbad hgood.1, hbad hgood.2.1, hgood.2.2 hbad]
  push Not at hguard
  obtain ⟨howner, hvalid, hmax⟩ := hguard
  have hacc := h hvalid
  refine wp_releaseLease hacc fun q hsame hq => ?_
  simp only [wp_modify, wp_pure, Bool.true_eq_false, false_imp_iff, true_and, not_false_eq_true,
    true_imp_iff]
  rw [← Multiset.singleton_add, Multiset.add_comm] at hacc
  have hadopt := hacc.adopt hq hsame
  exact hok _ howner hvalid hmax ⟨hsame.id, hsame.capacity⟩ hadopt

end Ninfer.DeviceKVPagePool
