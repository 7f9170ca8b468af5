/-
  The tiling invariant of `HostKVArena`.

  Every state change of the arena is one of three: a descriptor is taken from the stack and given
  the front of a free extent (`allocated`), given back with its range (`released`), or split in
  two (`splitAt`). Each keeps `WellFormed`: the ranges of the active descriptors and the free
  extents tile the buffer, the counters agree with them, and the stack holds the inactive
  descriptors. Since an allocation holds at least one page of the smallest stride, descriptors
  outlast the bytes.

  `apply_recipe` terminates the process when a stale recipe slips past its revision check; such
  a run ends there, and nothing is claimed about it.
-/
import Ninfer.Lib.Reach
import Ninfer.Lib.Tally
import Ninfer.Core.HostKVArena

namespace Ninfer.HostKVArena

open Lib Function HostKV

/-! ## State changes -/

section Changes

variable (s : HostKVArena)

def allocated (i : Nat) (rest : List Nat) (extents : List Span) (offset k pages bytes : Nat) :
    HostKVArena :=
  { s with
    freeDescriptors := rest
    freeExtents := extents
    descriptors := update s.descriptors i { s.descriptors i with
      offset, bytes, layout := k, pages, active := true }
    occupiedBytes := s.occupiedBytes + bytes
    revision := nextEpoch s.revision }

def released (i : Nat) : HostKVArena :=
  { s with
    freeDescriptors := i :: s.freeDescriptors
    freeExtents := Spans.insert s.freeExtents ⟨(s.descriptors i).offset, (s.descriptors i).bytes⟩
    descriptors := update s.descriptors i { s.descriptors i with
      offset := 0, bytes := 0, pages := 0, active := false
      generation := nextGeneration (s.descriptors i).generation }
    occupiedBytes := s.occupiedBytes - (s.descriptors i).bytes
    revision := nextEpoch s.revision }

/-- `right` gets the pages of `i` from `pageOffset` on. -/
def tailTaken (i right : Nat) (rest : List Nat) (stride pageOffset : Nat) : HostKVArena :=
  { s with
    freeDescriptors := rest
    descriptors := update s.descriptors right { s.descriptors right with
      offset := (s.descriptors i).offset + pageOffset * stride
      bytes := ((s.descriptors i).pages - pageOffset) * stride
      layout := (s.descriptors i).layout
      pages := (s.descriptors i).pages - pageOffset
      active := true } }

/-- What `i` is left with. -/
def front (i stride pageOffset : Nat) : Descriptor :=
  { s.descriptors i with
    generation := nextGeneration (s.descriptors i).generation
    pages := pageOffset
    bytes := pageOffset * stride }

def splitAt (i right : Nat) (rest : List Nat) (stride pageOffset : Nat) : HostKVArena :=
  { s.tailTaken i right rest stride pageOffset with
    descriptors := update (s.tailTaken i right rest stride pageOffset).descriptors i
      (s.front i stride pageOffset)
    revision := nextEpoch s.revision }

end Changes

/-! ## The operations as state changes -/

section Rules

variable {s : HostKVArena}

theorem takeFront_eq {before after : List Span} {e : Span} {bytes : Nat} (hpos : 0 < bytes)
    (hfit : bytes ≤ e.size) :
    takeFront (before ++ e :: after) before.length bytes =
      before ++ Spans.cut e e.start bytes ++ after := by
  have hget : (before ++ e :: after)[before.length]? = some e := by simp
  unfold takeFront Spans.cut Span.stop
  by_cases hall : e.size = bytes
  · subst hall
    simp [List.eraseIdx_append_of_length_le]
  · have hrest : e.size - bytes ≠ 0 := by omega
    have hne : bytes ≠ e.size := Ne.symm hall
    simp [hrest, hne]

theorem wp_takeDescriptor {P : Post HostKVArena Nat}
    (hnone : s.freeDescriptors = [] → P.ok maxU32 s)
    (hsome : ∀ i rest, s.freeDescriptors = i :: rest →
      P.ok i { s with freeDescriptors := rest }) : wp takeDescriptor P s := by
  unfold wp takeDescriptor
  cases hd : s.freeDescriptors with
  | nil => exact hnone hd
  | cons i rest => exact hsome i rest hd

variable {P : Post HostKVArena Unit} {layout : HostKVPageLayout}

@[simp] theorem wp_setDescriptor (i : Nat) (f : Descriptor → Descriptor) :
    wp (setDescriptor i f) P s ↔
      P.ok () { s with descriptors := update s.descriptors i (f (s.descriptors i)) } := .rfl

@[simp] theorem wp_bumpRevision :
    wp bumpRevision P s ↔ P.ok () { s with revision := nextEpoch s.revision } := .rfl

@[simp] theorem wp_insertFreeExtent (e : Span) : wp (insertFreeExtent e) P s ↔
      P.ok () { s with freeExtents := Spans.insert s.freeExtents e } := .rfl

/-- The free extent `find_free_extent` picks, with its place in the list. -/
theorem findFreeExtent_some {extents : List Span} {bytes k : Nat}
    (h : findFreeExtent extents bytes = some k) :
    ∃ before e after, extents = before ++ e :: after ∧ before.length = k ∧ bytes ≤ e.size := by
  obtain ⟨hk, hfit, -⟩ := List.findIdx?_eq_some_iff_getElem.mp h
  obtain ⟨heq, hlen⟩ := Spans.split_at (List.getElem?_eq_getElem hk)
  exact ⟨extents.take k, extents[k], extents.drop (k + 1), heq, hlen, by simpa using hfit⟩

theorem findLayout_some {k : Nat} (h : s.findLayout layout = some k) :
    s.layouts[k]? = some layout := by
  obtain ⟨hk, heq, -⟩ := List.findIdx?_eq_some_iff_getElem.mp h
  rw [List.getElem?_eq_getElem hk]
  simpa using heq

theorem findLayout_isSome (h : layout ∈ s.layouts) : ∃ k, s.findLayout layout = some k := by
  cases hk : s.findLayout layout with
  | some k => exact ⟨k, rfl⟩
  | none =>
    have := List.findIdx?_eq_none_iff.mp hk layout h
    simp at this

/-- An allocation comes to nothing, or takes the top descriptor and the front of an extent. -/
theorem wp_allocate {P : Post HostKVArena (Option HostKVAllocation)} {pages : Nat}
    (hstack : ∀ i ∈ s.freeDescriptors, i < maxU32) (hstride : 0 < layout.pageStride)
    (hnone : P.ok none s)
    (hsome : ∀ i rest before e after k, s.freeDescriptors = i :: rest → 0 < pages →
      s.layouts[k]? = some layout → s.freeExtents = before ++ e :: after →
      layout.pageStride * pages ≤ e.size →
      findFreeExtent s.freeExtents (layout.pageStride * pages) = some before.length →
      P.ok (some ⟨some s.id, i, (s.descriptors i).generation⟩)
        (s.allocated i rest (before ++ Spans.cut e e.start (layout.pageStride * pages) ++ after)
          e.start k pages (layout.pageStride * pages))) : wp (allocate layout pages) P s := by
  unfold allocate
  simp only [wp_bind, wp_get]
  cases hl : s.findLayout layout with
  | none => exact hnone
  | some k =>
    simp only [wp_ite, wp_pure]
    refine ⟨fun _ => hnone, fun hguard => ?_⟩
    push Not at hguard
    obtain ⟨hpages, hfree, -⟩ := hguard
    cases hf : findFreeExtent s.freeExtents (layout.pageStride * pages) with
    | none => exact hnone
    | some index =>
      obtain ⟨before, e, after, hext, rfl, hfit⟩ := findFreeExtent_some hf
      have hpos : 0 < layout.pageStride * pages := Nat.mul_pos hstride (Nat.pos_of_ne_zero hpages)
      have hget : (before ++ e :: after)[before.length]? = some e := by simp
      simp only [wp_bind]
      refine wp_takeDescriptor (fun h => absurd h hfree) fun i rest hd => ?_
      have hi : i ≠ maxU32 := Nat.ne_of_lt (hstack i (by simp [hd]))
      have hstep := hsome i rest before e after k hd (Nat.pos_of_ne_zero hpages)
        (findLayout_some hl) hext hfit hf
      simp only [wp_ite, wp_pure, hi, hget, wp_bind, wp_deref, wp_modify, wp_setDescriptor,
        wp_bumpRevision, wp_get, false_imp_iff, true_and, not_false_eq_true, true_imp_iff,
        Option.some.injEq, reduceCtorEq, and_true, forall_eq', hext, takeFront_eq hpos hfit,
        update_self]
      exact hstep

theorem wp_releaseDescriptor {P : Post HostKVArena Bool} {i generation : Nat}
    (hfalse : ¬ (i < s.descriptorCount ∧ (s.descriptors i).active = true ∧
      (s.descriptors i).generation = generation) → P.ok false s)
    (htrue : i < s.descriptorCount → (s.descriptors i).active = true →
      (s.descriptors i).generation = generation → P.ok true (s.released i)) :
    wp (releaseDescriptor i generation) P s := by
  unfold releaseDescriptor
  simp only [wp_bind, wp_get, wp_ite, wp_pure, wp_modify, wp_setDescriptor, wp_insertFreeExtent,
    wp_bumpRevision]
  refine ⟨fun hi => hfalse fun h => absurd h.1 (Nat.not_lt.mpr hi), fun hi => ⟨fun hd => ?_,
    fun hd => ?_⟩⟩
  · refine hfalse fun h => hd.elim (fun hd => ?_) fun hd => hd h.2.2
    rw [h.2.1] at hd
    cases hd
  · push Not at hi hd
    exact htrue hi (by simpa using hd.1) hd.2

theorem wp_release {P : Post HostKVArena Bool} {a : HostKVAllocation}
    (hfalse : ¬ s.validHandle a → P.ok false s)
    (htrue : s.validHandle a → P.ok true (s.released a.index)) : wp (release a) P s := by
  unfold release
  simp only [wp_bind, wp_get, wp_ite, wp_pure]
  refine ⟨fun howner => hfalse fun h => howner h.1, fun howner => ?_⟩
  push Not at howner
  exact wp_releaseDescriptor (fun h => hfalse fun hv => h hv.2)
    fun hi ha hg => htrue ⟨howner, hi, ha, hg⟩

/-- A split throws before it changes anything, except on an exhausted stack. -/
theorem wp_split {P : Post HostKVArena (HostKVAllocation × HostKVAllocation)}
    {a : HostKVAllocation} {pageOffset : Nat}
    (hstack : ∀ i ∈ s.freeDescriptors, i < maxU32 ∧ i ≠ a.index)
    (hlayout : s.validHandle a → ∃ l, s.layouts[(s.descriptors a.index).layout]? = some l)
    (hstale : ¬ s.validHandle a →
      P.throw (.invalidArgument "Cannot split a stale Host KV allocation") s)
    (hrange : ¬ (0 < pageOffset ∧ pageOffset < (s.descriptors a.index).pages) →
      P.throw (.outOfRange "Host KV split must leave two non-empty allocations") s)
    (hempty : s.validHandle a → 0 < pageOffset → pageOffset < (s.descriptors a.index).pages →
      s.freeDescriptors ≠ [])
    (hok : ∀ right rest layout, s.validHandle a → 0 < pageOffset →
      pageOffset < (s.descriptors a.index).pages → s.freeDescriptors = right :: rest →
      s.layouts[(s.descriptors a.index).layout]? = some layout →
      P.ok (⟨some s.id, a.index, nextGeneration (s.descriptors a.index).generation⟩,
        ⟨some s.id, right, (s.descriptors right).generation⟩)
        (s.splitAt a.index right rest layout.pageStride pageOffset)) :
    wp (split a pageOffset) P s := by
  unfold split
  simp only [wp_bind, wp_get, wp_ite, wp_raise, wp_pure]
  refine ⟨hstale, fun hv => ?_⟩
  rw [not_not] at hv
  refine ⟨fun hoff => hrange fun h => by omega, fun hoff => ?_⟩
  push Not at hoff
  have hpos := Nat.pos_of_ne_zero hoff.1
  refine wp_takeDescriptor (fun h => absurd h (hempty hv hpos hoff.2)) fun right rest hd => ?_
  obtain ⟨hmax, hne⟩ := hstack right (by simp [hd])
  obtain ⟨layout, hl⟩ := hlayout hv
  have hstep := hok right rest layout hv hpos hoff.2 hd hl
  simp only [Nat.ne_of_lt hmax, false_imp_iff, not_false_eq_true, true_imp_iff, true_and, hl,
    wp_deref, Option.some.injEq, forall_eq', reduceCtorEq, and_true, wp_setDescriptor,
    wp_bumpRevision, update_self, update_of_ne hne, update_of_ne hne.symm]
  exact hstep

end Rules

end Ninfer.HostKVArena

/-! ## The invariant -/

namespace Ninfer.HostKV.Descriptor

open Lib

def range (d : Descriptor) : Span := ⟨d.offset, d.bytes⟩

/-- The bytes a descriptor occupies. -/
def held (d : Descriptor) : Nat := if d.active then d.bytes else 0

def inUse (d : Descriptor) : Nat := if d.active then 1 else 0

/-- How often the descriptor covers the byte `x`. -/
def covers (x : Nat) (d : Descriptor) : Nat := if d.active = true ∧ d.range.Has x then 1 else 0

end Ninfer.HostKV.Descriptor

namespace Ninfer.HostKVArena

open Lib Function HostKV

def Active (s : HostKVArena) (i : Nat) : Prop :=
  i < s.descriptorCount ∧ (s.descriptors i).active = true

/-- The stack holds the inactive descriptors, each once. -/
structure Stack (s : HostKVArena) : Prop where
  nodup : s.freeDescriptors.Nodup
  mem : ∀ i, i ∈ s.freeDescriptors ↔ i < s.descriptorCount ∧ (s.descriptors i).active = false
  supply : s.freeDescriptors.length +
      ∑ i ∈ Finset.range s.descriptorCount, (s.descriptors i).inUse =
    s.descriptorCount

/-- Every byte of the buffer is covered once, by an active descriptor or by a free extent. -/
def Tiled (s : HostKVArena) : Prop :=
  ∀ x, (if Spans.Covered s.freeExtents x then 1 else 0) +
      ∑ i ∈ Finset.range s.descriptorCount, (s.descriptors i).covers x =
    if x < s.capacityBytes then 1 else 0

/-- An active descriptor holds whole pages of a supported layout. -/
def Sized (s : HostKVArena) (d : Descriptor) : Prop :=
  ∃ layout, s.layouts[d.layout]? = some layout ∧ d.bytes = d.pages * layout.pageStride ∧ 0 < d.pages

structure WellFormed (s : HostKVArena) : Prop where
  canonical : Spans.Canonical s.freeExtents
  tiled : Tiled s
  stack : Stack s
  sized : ∀ i, s.Active i → s.Sized (s.descriptors i)
  occupied : s.occupiedBytes = ∑ i ∈ Finset.range s.descriptorCount, (s.descriptors i).held
  balance : Spans.total s.freeExtents + s.occupiedBytes = s.capacityBytes
  /-- The descriptor count is what the smallest stride allows. -/
  smallest : ∃ m, 0 < m ∧ (∀ layout ∈ s.layouts, m ≤ layout.pageStride) ∧
    s.descriptorCount = s.capacityBytes / m
  bounded : s.descriptorCount ≤ maxU32
  addressable : s.capacityBytes ≤ maxU64

section Facts

variable {s : HostKVArena} (hs : WellFormed s)
include hs

variable {i m : Nat}

theorem WellFormed.stack_lt (hi : i ∈ s.freeDescriptors) : i < maxU32 :=
  Nat.lt_of_lt_of_le ((hs.stack.mem i).mp hi).1 hs.bounded

/-- A byte of an active descriptor is not free. -/
theorem WellFormed.not_covered {x : Nat} (hi : s.Active i) (hx : (s.descriptors i).range.Has x) :
    ¬ Spans.Covered s.freeExtents x := by
  intro hc
  have hone : (s.descriptors i).covers x = 1 := if_pos ⟨hi.2, hx⟩
  have hle := le_tally s.descriptorCount i hi.1 fun j => (s.descriptors j).covers x
  have htiled := hs.tiled x
  rw [if_pos hc] at htiled
  split at htiled <;> omega

theorem WellFormed.stride_pos {layout : HostKVPageLayout} (hl : layout ∈ s.layouts) :
    0 < layout.pageStride := by
  obtain ⟨m, hm, hmin, -⟩ := hs.smallest
  exact Nat.lt_of_lt_of_le hm (hmin layout hl)

/-- With a page of a supported stride to spare, some descriptor is on the stack. -/
theorem WellFormed.spare (hroom : ∀ m, 0 < m → (∀ l ∈ s.layouts, m ≤ l.pageStride) →
      (∑ i ∈ Finset.range s.descriptorCount, (s.descriptors i).inUse) * m + m ≤ s.capacityBytes) :
    s.freeDescriptors ≠ [] := by
  obtain ⟨m, hm, hmin, hcount⟩ := hs.smallest
  have h := hroom m hm hmin
  have hlt : ∑ i ∈ Finset.range s.descriptorCount, (s.descriptors i).inUse + 1 ≤
      s.capacityBytes / m := by
    rw [Nat.le_div_iff_mul_le hm, Nat.add_mul, Nat.one_mul]
    exact h
  have hsupply := hs.stack.supply
  intro hnil
  rw [hnil, List.length_nil] at hsupply
  omega

/-- An active descriptor of `n` pages or more holds `n` times the smallest stride. -/
theorem WellFormed.mul_le_held {n : Nat} (hmin : ∀ l ∈ s.layouts, m ≤ l.pageStride)
    (hi : s.Active i) (hn : n ≤ (s.descriptors i).pages) : n * m ≤ (s.descriptors i).held := by
  obtain ⟨l, hl, hbytes, -⟩ := hs.sized i hi
  have hstride := hmin l (List.mem_of_getElem? hl)
  unfold Descriptor.held
  rw [hi.2, if_pos rfl, hbytes]
  exact Nat.mul_le_mul hn hstride

section

variable (hmin : ∀ l ∈ s.layouts, m ≤ l.pageStride)

include hmin

theorem WellFormed.inUse_mul_le (hi : i ∈ Finset.range s.descriptorCount) :
    (s.descriptors i).inUse * m ≤ (s.descriptors i).held := by
  unfold Descriptor.inUse
  cases ha : (s.descriptors i).active with
  | false => simp
  | true =>
    have hactive : s.Active i := ⟨Finset.mem_range.mp hi, ha⟩
    obtain ⟨-, -, -, hpages⟩ := hs.sized i hactive
    exact hs.mul_le_held hmin hactive hpages

/-- Each active descriptor holds at least one page of the smallest stride. -/
theorem WellFormed.sum_inUse_mul_le :
    (∑ i ∈ Finset.range s.descriptorCount, (s.descriptors i).inUse) * m ≤ s.occupiedBytes := by
  rw [hs.occupied, Finset.sum_mul]
  exact Finset.sum_le_sum fun i hi => hs.inUse_mul_le hmin hi

/-- A descriptor that holds two pages leaves room for one more descriptor. -/
theorem WellFormed.sum_inUse_mul_le_of_two (hi : s.Active i) (htwo : 2 ≤ (s.descriptors i).pages) :
    (∑ i ∈ Finset.range s.descriptorCount, (s.descriptors i).inUse) * m + m ≤ s.occupiedBytes := by
  have hmem : i ∈ Finset.range s.descriptorCount := Finset.mem_range.mpr hi.1
  have hone : (s.descriptors i).inUse = 1 := by
    unfold Descriptor.inUse
    rw [hi.2, if_pos rfl]
  have htwice := hs.mul_le_held hmin hi htwo
  rw [hs.occupied, Finset.sum_mul, ← Finset.add_sum_erase _ _ hmem, ← Finset.add_sum_erase _ _ hmem]
  have hrest : ∑ j ∈ (Finset.range s.descriptorCount).erase i, (s.descriptors j).inUse * m ≤
      ∑ j ∈ (Finset.range s.descriptorCount).erase i, (s.descriptors j).held :=
    Finset.sum_le_sum fun j hj => hs.inUse_mul_le hmin (Finset.mem_of_mem_erase hj)
  rw [hone]
  omega

end

end Facts

/-! ## Each change keeps it -/

section Keep

variable {s t : HostKVArena} {i : Nat} {d : Descriptor}

/-- One descriptor is rewritten, and the free extents make up for it. -/
theorem Tiled.replace (hs : Tiled s) (hi : i < s.descriptorCount)
    (hx : ∀ x, (if Spans.Covered t.freeExtents x then 1 else 0) + d.covers x =
      (if Spans.Covered s.freeExtents x then 1 else 0) + (s.descriptors i).covers x)
    (hcap : t.capacityBytes = s.capacityBytes := by rfl)
    (hcount : t.descriptorCount = s.descriptorCount := by rfl)
    (hd : t.descriptors = update s.descriptors i d := by rfl) : Tiled t := by
  intro x
  have htally := tally_update s.descriptorCount i hi s.descriptors d (Descriptor.covers x)
  have hold := hs x
  have hnew := hx x
  rw [hcap, hcount, hd]
  omega

variable {rest : List Nat}

/-- One descriptor is rewritten, and the stack makes up for it. -/
theorem Stack.rewrite (hs : Stack s) (hi : i < s.descriptorCount) (hnodup : t.freeDescriptors.Nodup)
    (hnew : i ∈ t.freeDescriptors ↔ d.active = false)
    (hold : ∀ j, j ≠ i → (j ∈ t.freeDescriptors ↔ j ∈ s.freeDescriptors))
    (hlength : t.freeDescriptors.length + d.inUse =
      s.freeDescriptors.length + (s.descriptors i).inUse)
    (hcount : t.descriptorCount = s.descriptorCount)
    (hd : t.descriptors = update s.descriptors i d) : Stack t := by
  refine ⟨hnodup, fun j => ?_, ?_⟩
  · rw [hcount, hd]
    by_cases hj : j = i
    · subst hj
      simp [hnew, hi]
    · rw [update_of_ne hj, hold j hj, hs.mem j]
  · have htally := tally_update s.descriptorCount i hi s.descriptors d Descriptor.inUse
    have hsupply := hs.supply
    rw [hcount, hd]
    omega

theorem Stack.pop (hs : Stack s) (hstack : s.freeDescriptors = i :: t.freeDescriptors)
    (hactive : d.active = true) (hcount : t.descriptorCount = s.descriptorCount := by rfl)
    (hd : t.descriptors = update s.descriptors i d := by rfl) : Stack t := by
  obtain ⟨hi, hfree⟩ := (hs.mem i).mp (by simp [hstack])
  have hnodup := hs.nodup
  rw [hstack, List.nodup_cons] at hnodup
  refine hs.rewrite hi hnodup.2 (by simp [hnodup.1, hactive]) (fun j hj => ?_) ?_ hcount hd
  · simp [hstack, hj]
  · simp [hstack, Descriptor.inUse, hactive, hfree]

theorem Stack.push (hs : Stack s) (hi : s.Active i) (hinactive : d.active = false)
    (hpush : t.freeDescriptors = i :: s.freeDescriptors := by rfl)
    (hcount : t.descriptorCount = s.descriptorCount := by rfl)
    (hd : t.descriptors = update s.descriptors i d := by rfl) : Stack t := by
  have hnot : i ∉ s.freeDescriptors := by
    intro hmem
    have := ((hs.mem i).mp hmem).2
    rw [hi.2] at this
    cases this
  refine hs.rewrite hi.1 (hpush ▸ List.nodup_cons.mpr ⟨hnot, hs.nodup⟩) (by simp [hpush, hinactive])
    (fun j hj => ?_) ?_ hcount hd
  · simp [hpush, hj]
  · simp [hpush, Descriptor.inUse, hinactive, hi.2]

theorem Stack.relabel (hs : Stack s) (hi : i < s.descriptorCount)
    (hactive : d.active = (s.descriptors i).active)
    (hsame : t.freeDescriptors = s.freeDescriptors := by rfl)
    (hcount : t.descriptorCount = s.descriptorCount := by rfl)
    (hd : t.descriptors = update s.descriptors i d := by rfl) : Stack t := by
  refine hs.rewrite hi (hsame ▸ hs.nodup) ?_ (fun _ _ => by rw [hsame]) ?_ hcount hd
  · rw [hsame, hs.mem, hactive]
    exact and_iff_right hi
  · rw [hsame, Descriptor.inUse, Descriptor.inUse, hactive]

theorem sized_update (hs : ∀ j, s.Active j → s.Sized (s.descriptors j))
    (hcount : t.descriptorCount = s.descriptorCount) (hlayouts : t.layouts = s.layouts)
    (hd : t.descriptors = update s.descriptors i d) (hnew : d.active = true → s.Sized d) (j : Nat)
    (hj : t.Active j) : t.Sized (t.descriptors j) := by
  unfold Active at hj
  unfold Sized at *
  rw [hcount, hd] at hj
  rw [hlayouts, hd]
  by_cases hji : j = i
  · subst hji
    rw [update_self] at hj ⊢
    exact hnew hj.2
  · rw [update_of_ne hji] at hj ⊢
    exact hs j hj

theorem occupied_update (hs : s.occupiedBytes = ∑ j ∈ Finset.range s.descriptorCount,
      (s.descriptors j).held)
    (hi : i < s.descriptorCount) (hcount : t.descriptorCount = s.descriptorCount)
    (hd : t.descriptors = update s.descriptors i d)
    (hbytes : t.occupiedBytes + (s.descriptors i).held = s.occupiedBytes + d.held) :
    t.occupiedBytes = ∑ j ∈ Finset.range t.descriptorCount, (t.descriptors j).held := by
  have htally := tally_update s.descriptorCount i hi s.descriptors d Descriptor.held
  rw [hcount, hd]
  omega

theorem WellFormed.allocated (hs : WellFormed s) (hstack : s.freeDescriptors = i :: rest)
    {before after : List Span} {e : Span} (hext : s.freeExtents = before ++ e :: after)
    {k pages : Nat} {layout : HostKVPageLayout} (hlayout : s.layouts[k]? = some layout)
    (hpages : 0 < pages) (hfit : layout.pageStride * pages ≤ e.size) :
    WellFormed (s.allocated i rest
      (before ++ Spans.cut e e.start (layout.pageStride * pages) ++ after) e.start k pages
      (layout.pageStride * pages)) := by
  obtain ⟨hi, hfree⟩ := (hs.stack.mem i).mp (by simp [hstack])
  have hpos : 0 < layout.pageStride * pages :=
    Nat.mul_pos (hs.stride_pos (List.mem_of_getElem? hlayout)) hpages
  have hstop : e.start + layout.pageStride * pages ≤ e.stop := Nat.add_le_add_left hfit _
  have hcan := hs.canonical
  rw [hext] at hcan
  refine ⟨Spans.canonical_consume (Nat.le_refl _) hstop hcan hpos, ?_,
    hs.stack.pop hstack rfl, ?_, ?_, ?_, hs.smallest, hs.bounded, hs.addressable⟩
  · refine hs.tiled.replace hi fun x => ?_
    have hcov :
        Spans.Covered (before ++ Spans.cut e e.start (layout.pageStride * pages) ++ after) x ↔
        Spans.Covered s.freeExtents x ∧ ¬ Span.Has ⟨e.start, layout.pageStride * pages⟩ x :=
      hext ▸ Spans.covered_consume (Nat.le_refl _) hstop hcan
    have hwas : Span.Has ⟨e.start, layout.pageStride * pages⟩ x → Spans.Covered s.freeExtents x :=
      fun hx => ⟨e, by simp [hext], hx.1, Nat.lt_of_lt_of_le hx.2 hstop⟩
    simp only [HostKVArena.allocated, hcov, Descriptor.covers, Descriptor.range, hfree, true_and,
      Bool.false_eq_true, false_and, if_false]
    by_cases hnew : Span.Has ⟨e.start, layout.pageStride * pages⟩ x
    · simp [hnew, hwas hnew]
    · simp [hnew]
  · refine sized_update hs.sized rfl rfl rfl fun _ => ⟨layout, hlayout, ?_, hpages⟩
    exact Nat.mul_comm _ _
  · refine occupied_update hs.occupied hi rfl rfl ?_
    simp [HostKVArena.allocated, Descriptor.held, hfree]
  · have htotal : Spans.total (before ++ Spans.cut e e.start (layout.pageStride * pages) ++ after) +
          layout.pageStride * pages = Spans.total (before ++ e :: after) :=
      Spans.total_consume (Nat.le_refl e.start) hstop
    have hbalance := hs.balance
    rw [hext] at hbalance
    simp only [HostKVArena.allocated]
    omega

theorem WellFormed.released (hs : WellFormed s) (hi : s.Active i) : WellFormed (s.released i) := by
  obtain ⟨layout, hlayout, hbytes, hpages⟩ := hs.sized i hi
  have hpos : 0 < (s.descriptors i).range.size := by
    show 0 < (s.descriptors i).bytes
    rw [hbytes]
    exact Nat.mul_pos hpages (hs.stride_pos (List.mem_of_getElem? hlayout))
  have hfresh : ∀ x, (s.descriptors i).range.Has x → ¬ Spans.Covered s.freeExtents x :=
    fun x hx => hs.not_covered hi hx
  have hheld : (s.descriptors i).held = (s.descriptors i).bytes := if_pos hi.2
  have hle := le_tally s.descriptorCount i hi.1 fun j => (s.descriptors j).held
  rw [← hs.occupied, hheld] at hle
  refine ⟨Spans.canonical_insert hs.canonical hpos hfresh, ?_,
    hs.stack.push hi rfl, ?_, ?_, ?_, hs.smallest, hs.bounded, hs.addressable⟩
  · refine hs.tiled.replace hi.1 fun x => ?_
    have hcov : Spans.Covered (s.released i).freeExtents x ↔
        Spans.Covered s.freeExtents x ∨ (s.descriptors i).range.Has x :=
      Spans.covered_insert hs.canonical hpos hfresh
    simp only [hcov, Descriptor.covers, hi.2, true_and, Bool.false_eq_true, false_and, if_false]
    by_cases hx : (s.descriptors i).range.Has x
    · simp [hx, hfresh x hx]
    · simp [hx]
  · refine sized_update hs.sized rfl rfl rfl fun h => ?_
    cases h
  · refine occupied_update hs.occupied hi.1 rfl rfl ?_
    simp only [HostKVArena.released, hheld]
    simp only [Descriptor.held, Bool.false_eq_true, if_false]
    omega
  · have htotal := Spans.total_insert hs.canonical hpos hfresh
    have hbalance := hs.balance
    simp only [HostKVArena.released]
    simp only [Descriptor.range] at htotal
    omega

/-- A weight that the two parts of a split share keeps its tally. -/
theorem splitAt_tally {right stride pageOffset : Nat} (hi : i < s.descriptorCount)
    (hr : right < s.descriptorCount) (hne : right ≠ i) (w : Descriptor → Nat)
    (hzero : w (s.descriptors right) = 0)
    (hw : w ((s.tailTaken i right rest stride pageOffset).descriptors right) +
      w (s.front i stride pageOffset) = w (s.descriptors i)) :
    ∑ j ∈ Finset.range s.descriptorCount,
        w ((s.splitAt i right rest stride pageOffset).descriptors j) =
      ∑ j ∈ Finset.range s.descriptorCount, w (s.descriptors j) := by
  set mid := s.tailTaken i right rest stride pageOffset with hmid
  have htail := tally_update s.descriptorCount right hr s.descriptors (mid.descriptors right) w
  have hupd : update s.descriptors right (mid.descriptors right) = mid.descriptors := by
    simp [hmid, tailTaken]
  have hfront := tally_update s.descriptorCount i hi mid.descriptors (s.front i stride pageOffset) w
  have hsame : mid.descriptors i = s.descriptors i := update_of_ne hne.symm _ _
  rw [hupd] at htail
  rw [hsame] at hfront
  simp only [HostKVArena.splitAt, ← hmid]
  omega

theorem WellFormed.splitAt (hs : WellFormed s) (hi : s.Active i) {right : Nat}
    (hstack : s.freeDescriptors = right :: rest) {layout : HostKVPageLayout}
    (hlayout : s.layouts[(s.descriptors i).layout]? = some layout) {pageOffset : Nat}
    (hpos : 0 < pageOffset) (hlt : pageOffset < (s.descriptors i).pages) :
    WellFormed (s.splitAt i right rest layout.pageStride pageOffset) := by
  obtain ⟨hr, hfree⟩ := (hs.stack.mem right).mp (by simp [hstack])
  have hne : right ≠ i := by
    rintro rfl
    rw [hi.2] at hfree
    cases hfree
  have hbytes : (s.descriptors i).bytes = (s.descriptors i).pages * layout.pageStride := by
    obtain ⟨l, hl, h, -⟩ := hs.sized i hi
    rw [hlayout] at hl
    rwa [Option.some.inj hl]
  have hsum : pageOffset * layout.pageStride +
      ((s.descriptors i).pages - pageOffset) * layout.pageStride = (s.descriptors i).bytes := by
    rw [hbytes, ← Nat.add_mul]
    congr 1
    omega
  -- first `right` takes the tail, then `i` gives it up
  have hstackMid : Stack (s.tailTaken i right rest layout.pageStride pageOffset) :=
    hs.stack.pop hstack rfl
  have hsizedMid := sized_update (t := s.tailTaken i right rest layout.pageStride pageOffset)
    hs.sized rfl rfl rfl fun _ => ⟨layout, hlayout, rfl, Nat.sub_pos_of_lt hlt⟩
  have hsame : (s.front i layout.pageStride pageOffset).active =
      ((s.tailTaken i right rest layout.pageStride pageOffset).descriptors i).active := by
    simp [front, tailTaken, update_of_ne hne.symm]
  refine ⟨hs.canonical, ?_, hstackMid.relabel hi.1 hsame, ?_, ?_, hs.balance,
    hs.smallest, hs.bounded, hs.addressable⟩
  · intro x
    refine Eq.trans ?_ (hs.tiled x)
    refine congrArg _
      (splitAt_tally hi.1 hr hne (Descriptor.covers x) (if_neg (by simp [hfree])) ?_)
    simp only [tailTaken, front, update_self, Descriptor.covers, Descriptor.range, Span.Has,
      Span.stop, hi.2, true_and]
    split_ifs <;> omega
  · exact sized_update hsizedMid rfl rfl rfl fun _ => ⟨layout, hlayout, rfl, hpos⟩
  · refine hs.occupied.trans (splitAt_tally hi.1 hr hne Descriptor.held ?_ ?_).symm
    · exact if_neg (by simp [hfree])
    · simp only [tailTaken, front, update_self, Descriptor.held, hi.2, if_true]
      omega

end Keep

/-! ## Runs -/

/-- The public operations that change the arena, with any allocations and any recipe. -/
inductive Command where
  | allocate (layout : HostKVPageLayout) (pages : Nat)
  | split (allocation : HostKVAllocation) (pageOffset : Nat)
  | release (allocation : HostKVAllocation)
  | applyRecipe (recipe : HostKVAllocationRecipe)
      (proposedReleases : List (Option HostKVAllocation))
      (targetAllocations : List HostKVAllocation)

def run : Command → Eff HostKVArena Unit
  | .allocate layout pages => do let _ ← allocate layout pages
  | .split allocation pageOffset => do let _ ← split allocation pageOffset
  | .release allocation => do let _ ← release allocation
  | .applyRecipe recipe proposedReleases targetAllocations => do
    let _ ← applyRecipe recipe proposedReleases targetAllocations

/-- Fresh from the constructor; the capacity is a `std::size_t`. -/
def Fresh (s : HostKVArena) : Prop :=
  ∃ id capacityBytes layouts pinned, capacityBytes ≤ maxU64 ∧
    init id capacityBytes layouts pinned = .ok s

theorem checkLayouts_pos {previous layouts : List HostKVPageLayout}
    (h : checkLayouts previous layouts = .ok ()) : ∀ l ∈ layouts, 0 < l.pageStride := by
  induction layouts generalizing previous with
  | nil => simp
  | cons layout rest ih =>
    obtain ⟨planned, hplan, h⟩ := bind_eq_ok h
    split at h
    · cases h
    next heq =>
      rw [not_not] at heq
      split at h
      · cases h
      next =>
        exact List.forall_mem_cons.mpr ⟨heq ▸ pageStride_pos hplan, ih h⟩

/-- A fold of minima is a lower bound, and one of the values it folds. -/
theorem smallestStride_spec (first : HostKVPageLayout) (rest : List HostKVPageLayout) :
    (∀ l ∈ first :: rest, smallestStride first rest ≤ l.pageStride) ∧
      ∃ l ∈ first :: rest, smallestStride first rest = l.pageStride := by
  have hmin : ((first :: rest).map (·.pageStride)).min? = some (smallestStride first rest) := by
    rw [List.map_cons, List.min?_cons', List.foldl_map, smallestStride]
  obtain ⟨hmem, hle⟩ := List.min?_eq_some_iff.mp hmin
  obtain ⟨l, hl, heq⟩ := List.mem_map.mp hmem
  exact ⟨fun l hl => hle _ (List.mem_map_of_mem hl), l, hl, heq.symm⟩

variable {s : HostKVArena}

theorem wellFormed_fresh (h : Fresh s) : WellFormed s := by
  obtain ⟨id, capacity, layouts, pinned, hcap, h⟩ := h
  obtain ⟨_, hcheck, h⟩ := bind_eq_ok h
  have hstride := checkLayouts_pos hcheck
  split at h
  next hzero =>
    obtain rfl := Except.ok.inj h
    refine ⟨Spans.canonical_nil, ?_, ⟨List.nodup_nil, by simp, by simp⟩, ?_, by simp, by simp,
      ⟨1, by simp, hstride, by simp⟩, Nat.zero_le _, Nat.zero_le _⟩
    · intro x
      simp
    · rintro i ⟨hi, -⟩
      cases hi
  next hpos =>
    cases layouts with
    | nil => cases h
    | cons first rest =>
      dsimp only at h
      split at h
      · cases h
      next =>
        split at h
        · cases h
        next hmax =>
          obtain rfl := Except.ok.inj h
          obtain ⟨hle, l, hl, heq⟩ := smallestStride_spec first rest
          refine ⟨?_, ?_, ⟨List.nodup_range, by simp, ?_⟩, ?_, ?_, by simp,
            ⟨_, heq ▸ hstride l hl, hle, rfl⟩, Nat.le_of_not_gt hmax, hcap⟩
          · exact Spans.canonical_cons.mpr ⟨Nat.pos_of_ne_zero hpos, by simp, Spans.canonical_nil⟩
          · intro x
            simp [Descriptor.covers, Span.Has, Span.stop]
          · simp [Descriptor.inUse]
          · rintro i ⟨-, hactive⟩
            cases hactive
          · simp [Descriptor.held]

section Run

variable {s : HostKVArena}

theorem preserves_allocate (layout : HostKVPageLayout) (pages : Nat) :
    Preserves WellFormed (allocate layout pages) := by
  intro s hs
  by_cases hl : layout ∈ s.layouts
  · exact wp_allocate (fun _ => hs.stack_lt) (hs.stride_pos hl) hs
      fun _ _ _ _ _ _ hstack hpages hlayout hext hfit _ =>
        hs.allocated hstack hext hlayout hpages hfit
  · have hnone : s.findLayout layout = none := by
      refine List.findIdx?_eq_none_iff.mpr fun l hmem => ?_
      simpa using fun heq : l = layout => hl (heq ▸ hmem)
    simp only [allocate, wp_bind, wp_get, hnone, wp_pure]
    exact hs

theorem preserves_release (a : HostKVAllocation) : Preserves WellFormed (release a) :=
  fun _ hs => wp_release (fun _ => hs) fun hv => hs.released ⟨hv.2.1, hv.2.2.1⟩

/-- A descriptor of two pages or more leaves one on the stack for its second half. -/
theorem WellFormed.stack_ne_nil (hs : WellFormed s) {i pageOffset : Nat} (hi : s.Active i)
    (hpos : 0 < pageOffset) (hlt : pageOffset < (s.descriptors i).pages) :
    s.freeDescriptors ≠ [] := by
  refine hs.spare fun m _ hmin => ?_
  have htwo := hs.sum_inUse_mul_le_of_two hmin hi (by omega)
  have hbalance := hs.balance
  omega

theorem WellFormed.wp_split (hs : WellFormed s) (a : HostKVAllocation) (pageOffset : Nat) :
    wp (split a pageOffset) ⟨fun _ => WellFormed, fun e t => WellFormed t ∧
      e ≠ .logicError "Host KV descriptor capacity invariant was violated", True⟩ s := by
  by_cases hv : s.validHandle a
  · have hactive : s.Active a.index := ⟨hv.2.1, hv.2.2.1⟩
    refine HostKVArena.wp_split ?_ (fun _ => ?_) (fun _ => ⟨hs, by simp⟩) (fun _ => ⟨hs, by simp⟩)
      (fun _ hpos hlt => hs.stack_ne_nil hactive hpos hlt)
      fun right rest layout _ hpos hlt hstack hlayout =>
        hs.splitAt hactive hstack hlayout hpos hlt
    · intro i hi
      refine ⟨hs.stack_lt hi, ?_⟩
      rintro rfl
      have := ((hs.stack.mem _).mp hi).2
      rw [hactive.2] at this
      cases this
    · obtain ⟨layout, hlayout, -⟩ := hs.sized a.index hactive
      exact ⟨layout, hlayout⟩
  · unfold split
    simp only [wp_bind, wp_get, wp_ite, wp_raise]
    exact ⟨fun _ => ⟨hs, by simp⟩, fun h => absurd hv h⟩

theorem preserves_adoptTarget (target : Target) : Preserves WellFormed (adoptTarget target) := by
  refine .get_bind fun _ _ => .bind .deref fun _ => (preserves_allocate _ _).bind fun a => ?_
  cases a with
  | none => exact .die
  | some a => exact .get_bind fun _ _ => .ite .die (.pure _)

theorem preserves_applyRecipe (recipe : HostKVAllocationRecipe)
    (releases : List (Option HostKVAllocation)) (targets : List HostKVAllocation) :
    Preserves WellFormed (applyRecipe recipe releases targets) := by
  refine .get_bind fun s hs => .ite (.pure _) (.ite (.pure _) (.ite (.pure _) ?_))
  refine .bind (.forEach fun a => ?_) fun _ => .bind (fun t ht => ?_) fun _ => .pure _
  · unfold adoptRelease
    exact (preserves_release a).bind fun _ => .ite .die (.pure _)
  · exact wp_collect_keeps (fun target _ => preserves_adoptTarget target) ht

theorem reach_wellFormed (h : Reach Fresh run (fun _ _ => True) s) : WellFormed s := by
  refine h.inv (fun _ => wellFormed_fresh) fun c s hs _ => ?_
  cases c with
  | allocate layout pages =>
    exact wp_discard_keeps (preserves_allocate layout pages s hs)
  | split a pageOffset =>
    exact wp_discard_keeps
      (wp_mono (hs.wp_split a pageOffset) (fun _ _ h => h) (fun _ _ h => h.1) (fun h => h))
  | release a => exact wp_discard_keeps (preserves_release a s hs)
  | applyRecipe recipe releases targets =>
    exact wp_discard_keeps (preserves_applyRecipe recipe releases targets s hs)

end Run

/-- The active ranges and the free extents are disjoint and tile the buffer; the free list is
    sorted, maximal and without empty extents; sizes, the byte counter and the descriptor stack
    agree with the active descriptors. -/
structure TilingInvariant (s : HostKVArena) : Prop where
  activeDisjoint : ∀ i j, s.Active i → s.Active j → i ≠ j → ∀ x, (s.descriptors i).range.Has x →
    ¬ (s.descriptors j).range.Has x
  freeDisjoint : ∀ i, s.Active i → ∀ x, (s.descriptors i).range.Has x →
    ∀ e ∈ s.freeExtents, ¬ e.Has x
  tiles : ∀ x, x < s.capacityBytes ↔
    (∃ e ∈ s.freeExtents, e.Has x) ∨ ∃ i, s.Active i ∧ (s.descriptors i).range.Has x
  sortedMaximal : s.freeExtents.Pairwise fun a b => a.stop < b.start
  freeNonempty : ∀ e ∈ s.freeExtents, 0 < e.size
  sized : ∀ i, s.Active i → ∃ layout, s.layouts[(s.descriptors i).layout]? = some layout ∧
    (s.descriptors i).bytes = (s.descriptors i).pages * layout.pageStride
  occupied : s.occupiedBytes = ∑ i ∈ Finset.range s.descriptorCount,
    if (s.descriptors i).active then (s.descriptors i).bytes else 0
  stackNodup : s.freeDescriptors.Nodup
  stack : ∀ i, i ∈ s.freeDescriptors ↔ i < s.descriptorCount ∧ (s.descriptors i).active = false

theorem WellFormed.tilingInvariant (hs : WellFormed s) : TilingInvariant s := by
  refine ⟨?_, ?_, ?_, hs.canonical.apart, hs.canonical.nonempty, ?_, hs.occupied, hs.stack.nodup,
    hs.stack.mem⟩
  · intro i j hi hj hij x hix hjx
    have hi' : (s.descriptors i).covers x = 1 := if_pos ⟨hi.2, hix⟩
    have hj' : (s.descriptors j).covers x = 1 := if_pos ⟨hj.2, hjx⟩
    have hle := add_le_tally s.descriptorCount i j hi.1 hj.1 hij fun k => (s.descriptors k).covers x
    have htiled := hs.tiled x
    split at htiled <;> split at htiled <;> omega
  · intro i hi x hx e he hex
    exact hs.not_covered hi hx ⟨e, he, hex⟩
  · intro x
    have htiled := hs.tiled x
    constructor
    · intro hx
      by_cases hc : Spans.Covered s.freeExtents x
      · exact .inl hc
      · rw [if_neg hc, if_pos hx, Nat.zero_add] at htiled
        obtain ⟨i, hi, hne⟩ := Finset.exists_ne_zero_of_sum_ne_zero (htiled.trans_ne one_ne_zero)
        have hcov := (ite_ne_right_iff.mp hne).1
        exact .inr ⟨i, ⟨Finset.mem_range.mp hi, hcov.1⟩, hcov.2⟩
    · rintro (hc | ⟨i, hi, hx⟩)
      · by_contra hx
        rw [if_pos (show Spans.Covered s.freeExtents x from hc), if_neg hx] at htiled
        omega
      · by_contra hlt
        have hone : (s.descriptors i).covers x = 1 := if_pos ⟨hi.2, hx⟩
        have hle := le_tally s.descriptorCount i hi.1 fun k => (s.descriptors k).covers x
        rw [if_neg hlt] at htiled
        omega
  · intro i hi
    obtain ⟨layout, hlayout, hbytes, -⟩ := hs.sized i hi
    exact ⟨layout, hlayout, hbytes⟩

/-- A free extent that fits is allocated: descriptors do not run out first. -/
theorem WellFormed.allocate_succeeds (hs : WellFormed s) {layout : HostKVPageLayout}
    (hl : layout ∈ s.layouts) {pages : Nat} (hpages : 0 < pages) {e : Span}
    (he : e ∈ s.freeExtents) (hfit : layout.pageStride * pages ≤ e.size) :
    ∃ a t, allocate layout pages s = .ok (some a) t := by
  have hle := Spans.size_le_total he
  have hbalance := hs.balance
  have hcap := hs.addressable
  have hstack : s.freeDescriptors ≠ [] := by
    refine hs.spare fun m _ hmin => ?_
    have hsum := hs.sum_inUse_mul_le hmin
    have hone : 1 * m ≤ pages * layout.pageStride := Nat.mul_le_mul hpages (hmin layout hl)
    rw [Nat.mul_comm layout.pageStride] at hfit
    omega
  have hstride : ¬ layout.pageStride > maxU64 / pages := by
    rw [gt_iff_lt, Nat.not_lt, Nat.le_div_iff_mul_le hpages]
    omega
  obtain ⟨k, hk⟩ := findLayout_isSome hl
  obtain ⟨j, hj⟩ : ∃ j, findFreeExtent s.freeExtents (layout.pageStride * pages) = some j := by
    cases hj : findFreeExtent s.freeExtents (layout.pageStride * pages) with
    | some j => exact ⟨j, rfl⟩
    | none =>
      have := List.findIdx?_eq_none_iff.mp hj e he
      simp only [decide_eq_false_iff_not] at this
      exact absurd hfit this
  obtain ⟨before, free, after, hext, rfl, -⟩ := findFreeExtent_some hj
  obtain ⟨i, rest, hi⟩ := List.exists_cons_of_ne_nil hstack
  have hmax : i ≠ maxU32 := Nat.ne_of_lt (hs.stack_lt (by simp [hi]))
  have hget : s.freeExtents[before.length]? = some free := by simp [hext]
  have hguard : ¬ (pages = 0 ∨ s.freeDescriptors = [] ∨ layout.pageStride > maxU64 / pages) := by
    rintro (h | h | h)
    · omega
    · exact hstack h
    · exact hstride h
  have hwp : wp (allocate layout pages) ⟨fun r _ => r ≠ none, fun _ _ => False, False⟩ s := by
    unfold allocate
    simp only [wp_bind, wp_get, hk, wp_ite, hguard, hj, false_imp_iff, not_false_eq_true,
      true_imp_iff, true_and]
    refine wp_takeDescriptor (fun h => absurd h hstack) fun i' rest' hi' => ?_
    obtain ⟨rfl, rfl⟩ := List.cons.inj (hi.symm.trans hi')
    simp [hmax, hget]
  obtain ⟨r, t, hr, hne⟩ := wp_returns hwp
  obtain ⟨a, rfl⟩ := Option.ne_none_iff_exists'.mp hne
  exact ⟨a, t, hr⟩

/-- After any sequence of allocations, splits, releases and recipes the arena is tiled; an
    allocation that finds a free extent succeeds, and no split exhausts the descriptors. -/
theorem arena_tiles (s : HostKVArena) (h : Reach Fresh run (fun _ _ => True) s) :
    TilingInvariant s ∧ (∀ layout ∈ s.layouts, ∀ pages, 0 < pages →
        (∃ e ∈ s.freeExtents, layout.pageStride * pages ≤ e.size) →
        ∃ a t, allocate layout pages s = .ok (some a) t) ∧
      ∀ a pageOffset t, split a pageOffset s ≠
        .throw (.logicError "Host KV descriptor capacity invariant was violated") t := by
  have hs := reach_wellFormed h
  refine ⟨hs.tilingInvariant, ?_, ?_⟩
  · rintro layout hl pages hpages ⟨e, he, hfit⟩
    exact hs.allocate_succeeds hl hpages he hfit
  · intro a pageOffset t
    exact wp_never (hs.wp_split a pageOffset) fun _ hthrow => hthrow.2 rfl

/-- One plane of 64 bytes a page, packed into a record of 256. -/
def smallLayout : HostKVPageLayout where
  geometry := { planes := [⟨.u8, 1, 1, 256⟩] }
  planes := [⟨0, 64, 64⟩]
  pageStride := 256

def smallArena : HostKVArena where
  id := 0
  capacityBytes := 1024
  layouts := [smallLayout]
  descriptorCount := 4
  freeDescriptors := List.range 4
  freeExtents := [⟨0, 1024⟩]

theorem smallArena_fresh : Fresh smallArena :=
  ⟨0, 1024, [smallLayout], true, by decide, rfl⟩

/-- Allocate three pages, split off the first, give the other two back. -/
def splitAndRelease : List Command :=
  [.allocate smallLayout 3, .split ⟨some 0, 0, 1⟩ 1, .release ⟨some 0, 1, 1⟩]

theorem splitAndRelease_tiles :
    ∃ s : HostKVArena, (s.occupiedBytes, s.freeExtents) = (256, [⟨256, 768⟩]) ∧ TilingInvariant s ∧
      (∀ layout ∈ s.layouts, ∀ pages, 0 < pages →
        (∃ e ∈ s.freeExtents, layout.pageStride * pages ≤ e.size) →
        ∃ a t, allocate layout pages s = .ok (some a) t) ∧
      ∀ a pageOffset t, split a pageOffset s ≠
        .throw (.logicError "Host KV descriptor capacity invariant was violated") t := by
  have hrun : (trace run (fun _ _ => True) splitAndRelease smallArena).map (fun s =>
      (s.occupiedBytes, s.freeExtents)) = some (256, [⟨256, 768⟩]) := by rfl
  obtain ⟨s, hreach, hstate⟩ := Reach.of_trace_map smallArena_fresh hrun
  exact ⟨s, hstate, arena_tiles s hreach⟩

end Ninfer.HostKVArena
