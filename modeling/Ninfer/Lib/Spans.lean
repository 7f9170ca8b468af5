/-
  Sorted lists of half-open ranges.

  `Canonical` is the normal form a free list is kept in: no empty range, and a gap between any two
  neighbours, so ranges that touch have been merged. `insert` adds a range and merges it with the
  neighbours it touches; `consume` cuts a part out of one range. Each comes with three facts: the
  result is canonical, what it covers, and how the total length changes.
-/
import Mathlib

namespace Lib

/-- The half-open range `[start, start + size)`. -/
structure Span where
  start : Nat
  size : Nat

namespace Span

def stop (s : Span) : Nat := s.start + s.size

def Has (s : Span) (x : Nat) : Prop := s.start ≤ x ∧ x < s.stop
  deriving Decidable

theorem has_start {s : Span} (h : 0 < s.size) : s.Has s.start := by
  refine ⟨Nat.le_refl _, ?_⟩
  unfold stop
  omega

end Span

namespace Spans

variable {l before after : List Span} {e s : Span} {x : Nat}

def Covered (l : List Span) (x : Nat) : Prop :=
  ∃ s ∈ l, s.Has x
  deriving Decidable

def total (l : List Span) : Nat :=
  (l.map (·.size)).sum

structure Canonical (l : List Span) : Prop where
  nonempty : ∀ s ∈ l, 0 < s.size
  apart : l.Pairwise fun a b => a.stop < b.start

theorem split_at {α : Type} {l : List α} {i : Nat} {a : α} (h : l[i]? = some a) :
    l = l.take i ++ a :: l.drop (i + 1) ∧ (l.take i).length = i := by
  obtain ⟨hi, rfl⟩ := List.getElem?_eq_some_iff.mp h
  refine ⟨by simp, ?_⟩
  rw [List.length_take]
  omega

/-! ## Covering and length -/

@[simp] theorem not_covered_nil : ¬ Covered [] x := by
  rintro ⟨s, hs, _⟩
  cases hs

@[simp] theorem covered_cons : Covered (s :: l) x ↔ s.Has x ∨ Covered l x := by
  simp [Covered]

@[simp] theorem covered_append :
    Covered (before ++ after) x ↔ Covered before x ∨ Covered after x := by
  unfold Covered
  simp [or_and_right, exists_or]

@[simp] theorem total_nil : total [] = 0 := rfl

@[simp] theorem total_cons : total (s :: l) = s.size + total l := by
  simp [total]

@[simp] theorem total_append : total (before ++ after) = total before + total after := by
  simp [total]

theorem size_le_total (h : s ∈ l) : s.size ≤ total l :=
  List.le_sum_of_mem (List.mem_map_of_mem h)

/-! ## The normal form -/

theorem canonical_nil : Canonical [] :=
  ⟨by simp, List.Pairwise.nil⟩

theorem canonical_cons :
    Canonical (s :: l) ↔ 0 < s.size ∧ (∀ b ∈ l, s.stop < b.start) ∧ Canonical l := by
  constructor
  · rintro ⟨hn, ha⟩
    rw [List.pairwise_cons] at ha
    exact ⟨hn s (by simp), ha.1, fun b hb => hn b (by simp [hb]), ha.2⟩
  · rintro ⟨hs, hb, hl⟩
    refine ⟨?_, List.pairwise_cons.mpr ⟨hb, hl.apart⟩⟩
    exact List.forall_mem_cons.mpr ⟨hs, hl.nonempty⟩

theorem canonical_append : Canonical (before ++ after) ↔ Canonical before ∧ Canonical after ∧
      ∀ a ∈ before, ∀ b ∈ after, a.stop < b.start := by
  constructor
  · rintro ⟨hn, ha⟩
    obtain ⟨h₁, h₂, h₃⟩ := List.pairwise_append.mp ha
    exact ⟨⟨fun a h => hn a (by simp [h]), h₁⟩, ⟨fun b h => hn b (by simp [h]), h₂⟩, h₃⟩
  · rintro ⟨⟨hn₁, h₁⟩, ⟨hn₂, h₂⟩, h₃⟩
    refine ⟨?_, List.pairwise_append.mpr ⟨h₁, h₂, h₃⟩⟩
    exact List.forall_mem_append.mpr ⟨hn₁, hn₂⟩

/-! ## Insertion -/

/-- `e` between `before` and `after`, merged with the first range of `after` if they touch. -/
def joinNext (before : List Span) (e : Span) (after : List Span) : List Span :=
  match after with
  | [] => before ++ [e]
  | n :: rest =>
    if e.stop = n.start then before ++ ⟨e.start, e.size + n.size⟩ :: rest
    else before ++ e :: n :: rest

/-- Insert before the first range that does not start below `e`, merging on both sides. -/
def insert (l : List Span) (e : Span) : List Span :=
  let before := l.takeWhile (·.start < e.start)
  let after := l.dropWhile (·.start < e.start)
  match before.getLast? with
  | none => joinNext before e after
  | some p =>
    if p.stop = e.start then joinNext before.dropLast ⟨p.start, p.size + e.size⟩ after
    else joinNext before e after

/-- `e` fits strictly after `before` and not before the end of `e` starts `after`. -/
structure Fits (before : List Span) (e : Span) (after : List Span) : Prop where
  left : Canonical before
  right : Canonical after
  nonempty : 0 < e.size
  above : ∀ a ∈ before, a.stop < e.start
  below : ∀ b ∈ after, e.stop ≤ b.start

theorem canonical_joinNext (h : Fits before e after) : Canonical (joinNext before e after) := by
  obtain ⟨hl, hr, he, habove, hbelow⟩ := h
  unfold joinNext
  cases after with
  | nil =>
    refine canonical_append.mpr ⟨hl, canonical_cons.mpr ⟨he, by simp, canonical_nil⟩, ?_⟩
    simpa using habove
  | cons n rest =>
    obtain ⟨hn, hrest, hcan⟩ := canonical_cons.mp hr
    have hen : e.stop ≤ n.start := hbelow n (by simp)
    have hstart : e.start < n.start := by unfold Span.stop at hen; omega
    have hfar : ∀ b ∈ rest, n.start < b.start := fun b hb => by
      have := hrest b hb
      unfold Span.stop at this
      omega
    dsimp only
    split
    case isTrue htouch =>
      refine canonical_append.mpr ⟨hl, canonical_cons.mpr ⟨by dsimp only; omega, ?_, hcan⟩, ?_⟩
      · intro b hb
        have := hrest b hb
        unfold Span.stop at *
        dsimp only
        omega
      · intro a ha b hb
        have := habove a ha
        rcases List.mem_cons.mp hb with rfl | hb
        · exact this
        · have := hfar b hb
          omega
    case isFalse hgap =>
      have hlt : e.stop < n.start := by omega
      refine canonical_append.mpr ⟨hl, canonical_cons.mpr ⟨he, ?_, hr⟩, ?_⟩
      · intro b hb
        rcases List.mem_cons.mp hb with rfl | hb
        · exact hlt
        · have := hfar b hb
          omega
      · intro a ha b hb
        have := habove a ha
        rcases List.mem_cons.mp hb with rfl | hb
        · exact this
        · rcases List.mem_cons.mp hb with rfl | hb
          · omega
          · have := hfar b hb
            omega

theorem covered_joinNext :
    Covered (joinNext before e after) x ↔ Covered before x ∨ e.Has x ∨ Covered after x := by
  unfold joinNext
  cases after with
  | nil => simp
  | cons n rest =>
    dsimp only
    split
    case isTrue htouch =>
      have hjoin : Span.Has ⟨e.start, e.size + n.size⟩ x ↔ e.Has x ∨ n.Has x := by
        unfold Span.Has Span.stop at *
        dsimp only
        omega
      simp [covered_append, covered_cons, hjoin, or_assoc]
    case isFalse => simp [covered_append, covered_cons]

theorem total_joinNext : total (joinNext before e after) = total before + e.size + total after := by
  unfold joinNext
  cases after with
  | nil => simp
  | cons n rest =>
    dsimp only
    split <;> simp only [total_append, total_cons] <;> omega

/-- Below the partition point every range ends before `e`, above it every range starts after. -/
theorem fits_sides (hc : Canonical l) (he : 0 < e.size) (hd : ∀ x, e.Has x → ¬ Covered l x) :
    (∀ a ∈ l.takeWhile (·.start < e.start), a.stop ≤ e.start) ∧
      ∀ b ∈ l.dropWhile (·.start < e.start), e.stop ≤ b.start := by
  induction l with
  | nil => simp
  | cons s rest ih =>
    obtain ⟨hs, hrest, hcan⟩ := canonical_cons.mp hc
    obtain ⟨ihl, ihr⟩ := ih hcan fun x hx hcov => hd x hx (covered_cons.mpr (.inr hcov))
    by_cases hlt : s.start < e.start
    · have hstop : s.stop ≤ e.start := by
        by_contra hover
        refine hd e.start (Span.has_start he) (covered_cons.mpr (.inl ?_))
        exact ⟨by omega, by omega⟩
      simp only [List.takeWhile_cons, List.dropWhile_cons, hlt, decide_true, if_true]
      refine ⟨?_, ihr⟩
      exact List.forall_mem_cons.mpr ⟨hstop, ihl⟩
    · have hstart : e.stop ≤ s.start := by
        by_contra hover
        refine hd s.start ⟨by omega, by omega⟩ (covered_cons.mpr (.inl (Span.has_start hs)))
      simp only [List.takeWhile_cons, List.dropWhile_cons, hlt, decide_false]
      refine ⟨by simp, ?_⟩
      refine List.forall_mem_cons.mpr ⟨hstart, fun b hb => ?_⟩
      have := hrest b hb
      unfold Span.stop at this
      omega

/-- What an insertion of a fresh range comes to: `joinNext` at a place where it fits, with the
    predecessor already merged in if it touches. -/
theorem insert_cases (hc : Canonical l) (he : 0 < e.size) (hd : ∀ x, e.Has x → ¬ Covered l x) :
    ∃ before e' after, insert l e = joinNext before e' after ∧ Fits before e' after ∧
      (∀ x, Covered before x ∨ e'.Has x ∨ Covered after x ↔ Covered l x ∨ e.Has x) ∧
      total before + e'.size + total after = total l + e.size := by
  obtain ⟨hleft, hright⟩ := fits_sides hc he hd
  have hsplit : l.takeWhile (·.start < e.start) ++ l.dropWhile (·.start < e.start) = l :=
    List.takeWhile_append_dropWhile
  unfold insert
  generalize l.takeWhile (·.start < e.start) = before at *
  generalize l.dropWhile (·.start < e.start) = after at *
  subst hsplit
  obtain ⟨hcb, hca, hba⟩ := canonical_append.mp hc
  -- split off the predecessor, the only range below that can touch `e`
  rcases List.eq_nil_or_concat before with rfl | ⟨init, p, rfl⟩
  · refine ⟨[], e, after, rfl, ⟨canonical_nil, hca, he, by simp, hright⟩, ?_, ?_⟩
    · intro x
      simp [or_comm]
    · simp only [total_append]
      omega
  · simp only [List.concat_eq_append] at *
    obtain ⟨hci, hcp, hip⟩ := canonical_append.mp hcb
    have hp : 0 < p.size := (canonical_cons.mp hcp).1
    have hpe : p.stop ≤ e.start := hleft p (by simp)
    simp only [List.getLast?_append, List.getLast?_singleton, Option.some_or, List.dropLast_concat]
    split
    case isTrue htouch =>
      refine ⟨init, ⟨p.start, p.size + e.size⟩, after, rfl,
        ⟨hci, hca, by dsimp only; omega, ?_, ?_⟩,
        ?_, ?_⟩
      · intro a ha
        exact hip a ha p (by simp)
      · intro b hb
        have := hright b hb
        unfold Span.stop at *
        dsimp only
        omega
      · intro x
        have hjoin : Span.Has ⟨p.start, p.size + e.size⟩ x ↔ p.Has x ∨ e.Has x := by
          unfold Span.Has Span.stop at *
          dsimp only
          omega
        simp only [covered_append, covered_cons, not_covered_nil, or_false, hjoin]
        tauto
      · simp only [total_append, total_cons, total_nil]
        omega
    case isFalse hgap =>
      refine ⟨init ++ [p], e, after, rfl, ⟨hcb, hca, he, ?_, hright⟩, ?_, ?_⟩
      · intro a ha
        rcases List.mem_append.mp ha with ha | ha
        · have := hip a ha p (by simp)
          unfold Span.stop at hpe
          omega
        · obtain rfl := List.mem_singleton.mp ha
          omega
      · intro x
        simp only [covered_append]
        tauto
      · simp only [total_append]
        omega

section Insert

variable (hc : Canonical l) (he : 0 < e.size) (hd : ∀ x, e.Has x → ¬ Covered l x)
include hc he hd

theorem canonical_insert : Canonical (insert l e) := by
  obtain ⟨before, e', after, heq, hfits, -, -⟩ := insert_cases hc he hd
  rw [heq]
  exact canonical_joinNext hfits

theorem covered_insert : Covered (insert l e) x ↔ Covered l x ∨ e.Has x := by
  obtain ⟨before, e', after, heq, -, hcov, -⟩ := insert_cases hc he hd
  rw [heq, covered_joinNext]
  exact hcov x

theorem total_insert : total (insert l e) = total l + e.size := by
  obtain ⟨before, e', after, heq, -, -, htotal⟩ := insert_cases hc he hd
  rw [heq, total_joinNext]
  exact htotal

end Insert

/-! ## Cutting a part out of one range -/

/-- What is left of `s` without `[start, start + size)`. -/
def cut (s : Span) (start size : Nat) : List Span :=
  if start = s.start ∧ start + size = s.stop then []
  else if start = s.start then [⟨s.start + size, s.size - size⟩]
  else if start + size = s.stop then [⟨s.start, start - s.start⟩]
  else [⟨s.start, start - s.start⟩, ⟨start + size, s.stop - (start + size)⟩]

section Cut

variable {start size : Nat} (hs : s.start ≤ start) (ht : start + size ≤ s.stop)
include hs ht

theorem canonical_cut (hpos : 0 < size) : Canonical (cut s start size) := by
  have hsize : s.stop = s.start + s.size := rfl
  unfold cut
  split_ifs with h₁ h₂ h₃
  · exact canonical_nil
  · refine canonical_cons.mpr ⟨?_, by simp, canonical_nil⟩
    dsimp only
    omega
  · refine canonical_cons.mpr ⟨?_, by simp, canonical_nil⟩
    dsimp only
    omega
  · refine canonical_cons.mpr ⟨?_, ?_, canonical_cons.mpr ⟨?_, by simp, canonical_nil⟩⟩
    · dsimp only
      omega
    · intro b hb
      obtain rfl := List.mem_singleton.mp hb
      unfold Span.stop
      dsimp only
      omega
    · dsimp only
      omega

theorem covered_cut : Covered (cut s start size) x ↔ s.Has x ∧ ¬ Span.Has ⟨start, size⟩ x := by
  have hsize : s.stop = s.start + s.size := rfl
  unfold cut
  split_ifs <;> simp only [covered_cons, not_covered_nil, or_false, false_iff, Span.Has] <;>
    unfold Span.stop at * <;> dsimp only <;> omega

theorem total_cut : total (cut s start size) + size = s.size := by
  have hsize : s.stop = s.start + s.size := rfl
  unfold cut
  split_ifs <;> simp only [total_cons, total_nil] <;> omega

theorem within_cut (hb : e ∈ cut s start size) : s.start ≤ e.start ∧ e.stop ≤ s.stop := by
  have hsize : s.stop = s.start + s.size := rfl
  unfold cut at hb
  split_ifs at hb <;> simp only [List.mem_cons, List.not_mem_nil, or_false] at hb
  · obtain rfl := hb
    unfold Span.stop at *
    dsimp only
    omega
  · obtain rfl := hb
    unfold Span.stop at *
    dsimp only
    omega
  · rcases hb with rfl | rfl <;> unfold Span.stop at * <;> dsimp only <;> omega

/-- One range of a canonical list replaced by what a cut leaves of it. -/
theorem canonical_consume (hc : Canonical (before ++ s :: after)) (hpos : 0 < size) :
    Canonical (before ++ cut s start size ++ after) := by
  obtain ⟨hcb, hcs, hba⟩ := canonical_append.mp hc
  obtain ⟨hsize, hsa, hca⟩ := canonical_cons.mp hcs
  refine canonical_append.mpr ⟨canonical_append.mpr ⟨hcb, canonical_cut hs ht hpos, ?_⟩, hca, ?_⟩
  · intro a ha b hb
    have := hba a ha s (by simp)
    have := (within_cut hs ht hb).1
    omega
  · intro a ha b hb
    rcases List.mem_append.mp ha with ha | ha
    · exact hba a ha b (by simp [hb])
    · have := (within_cut hs ht ha).2
      have := hsa b hb
      omega

theorem covered_consume (hc : Canonical (before ++ s :: after)) :
    Covered (before ++ cut s start size ++ after) x ↔
      Covered (before ++ s :: after) x ∧ ¬ Span.Has ⟨start, size⟩ x := by
  obtain ⟨-, hcs, hba⟩ := canonical_append.mp hc
  obtain ⟨-, hsa, -⟩ := canonical_cons.mp hcs
  -- the neighbours of `s` do not reach into the part that is cut out
  have hleft : Covered before x → ¬ Span.Has ⟨start, size⟩ x := by
    rintro ⟨a, ha, hax⟩ hcut
    have := hba a ha s (by simp)
    unfold Span.Has at hax hcut
    dsimp only at hcut
    omega
  have hright : Covered after x → ¬ Span.Has ⟨start, size⟩ x := by
    rintro ⟨b, hb, hbx⟩ hcut
    have := hsa b hb
    unfold Span.Has at hbx hcut
    unfold Span.stop at *
    dsimp only at hcut
    omega
  simp only [covered_append, covered_cons, covered_cut hs ht]
  tauto

theorem total_consume :
    total (before ++ cut s start size ++ after) + size = total (before ++ s :: after) := by
  have := total_cut hs ht
  simp only [total_append, total_cons]
  omega

end Cut

/-! ## Taking single points out -/

/-- `l'` is what is left of `l` without the points `xs`. -/
structure Taken (l : List Span) (xs : List Nat) (l' : List Span) : Prop where
  nodup : xs.Nodup
  covered : ∀ x ∈ xs, Covered l x
  canonical : Canonical l'
  rest : ∀ x, Covered l' x ↔ Covered l x ∧ x ∉ xs
  total : total l' + xs.length = total l

theorem taken_nil (h : Canonical l) : Taken l [] l :=
  ⟨List.nodup_nil, by simp, h, by simp, by simp⟩

/-- The points of a range cut out of one member. -/
theorem taken_cut (hc : Canonical (before ++ s :: after)) {start size : Nat} (hs : s.start ≤ start)
    (ht : start + size ≤ s.stop) (hpos : 0 < size) :
    Taken (before ++ s :: after) (List.range' start size)
      (before ++ cut s start size ++ after) := by
  refine ⟨List.nodup_range', ?_, canonical_consume hs ht hc hpos, ?_, ?_⟩
  · intro x hx
    have hx := List.mem_range'_1.mp hx
    exact ⟨s, by simp, by omega, by omega⟩
  · intro x
    rw [covered_consume hs ht hc, List.mem_range'_1]
    rfl
  · rw [List.length_range']
    exact total_consume hs ht

end Spans

end Lib
