/-
  Counting over a table that is updated one entry at a time.

  `∑ i ∈ range n, w (f i)` is the tally of the table `f` under the weight `w`. One entry of
  `f` changes: the tally changes by the difference of the two weights, written without
  subtraction so that `omega` can use it. The same for `countP` when one entry of a list goes.
-/
import Mathlib

namespace Lib

open Finset Function

variable {ι M : Type} [AddCommMonoid M]

theorem tally_update (n i : Nat) (h : i < n) (f : Nat → ι) (b : ι) (w : ι → M) :
    (∑ j ∈ range n, w (update f i b j)) + w (f i) = (∑ j ∈ range n, w (f j)) + w b := by
  have hi : i ∈ range n := mem_range.mpr h
  rw [← add_sum_erase _ (fun j => w (update f i b j)) hi, ← add_sum_erase _ (fun j => w (f j)) hi]
  have hrest : ∑ j ∈ (range n).erase i, w (update f i b j) = ∑ j ∈ (range n).erase i, w (f j) := by
    refine sum_congr rfl fun j hj => ?_
    rw [update_of_ne (ne_of_mem_erase hj)]
  rw [hrest, update_self, add_comm (w b), add_right_comm, add_comm (w (f i)), add_right_comm]

/-- An update outside the table does not change the tally. -/
theorem tally_update_of_le (n i : Nat) (h : n ≤ i) (f : Nat → ι) (b : ι) (w : ι → M) :
    (∑ j ∈ range n, w (update f i b j)) = ∑ j ∈ range n, w (f j) := by
  refine sum_congr rfl fun j hj => ?_
  have := mem_range.mp hj
  rw [update_of_ne (by omega)]

/-- One entry is at most the whole tally. -/
theorem le_tally (n i : Nat) (h : i < n) (w : Nat → Nat) : w i ≤ ∑ j ∈ range n, w j :=
  single_le_sum (fun _ _ => Nat.zero_le _) (mem_range.mpr h)

/-- Two distinct entries together are at most the whole tally. -/
theorem add_le_tally (n i j : Nat) (hi : i < n) (hj : j < n) (hne : i ≠ j) (w : Nat → Nat) :
    w i + w j ≤ ∑ k ∈ range n, w k := by
  have hi' : i ∈ range n := mem_range.mpr hi
  have hj' : j ∈ (range n).erase i := mem_erase.mpr ⟨hne.symm, mem_range.mpr hj⟩
  rw [← add_sum_erase _ w hi', ← add_sum_erase _ w hj']
  omega

/-- One entry of a list is replaced. -/
theorem sum_map_set {α : Type} {l : List α} {k : Nat} {a : α} (h : l[k]? = some a) (b : α)
    (w : α → M) : ((l.set k b).map w).sum + w a = (l.map w).sum + w b := by
  induction l generalizing k with
  | nil => simp at h
  | cons c l ih =>
    cases k with
    | zero =>
      simp only [List.getElem?_cons_zero, Option.some.injEq] at h
      subst h
      simp only [List.set_cons_zero, List.map_cons, List.sum_cons]
      rw [add_right_comm, add_comm (w b), add_right_comm]
    | succ k =>
      simp only [List.set_cons_succ, List.map_cons, List.sum_cons]
      rw [add_assoc, ih h, add_assoc]

theorem countP_eraseIdx {α : Type} {l : List α} {k : Nat} {a : α} (h : l[k]? = some a)
    (p : α → Bool) : l.countP p = (l.eraseIdx k).countP p + if p a then 1 else 0 := by
  induction l generalizing k with
  | nil => simp at h
  | cons b l ih =>
    cases k with
    | zero =>
      simp only [List.getElem?_cons_zero, Option.some.injEq] at h
      subst h
      simp [List.countP_cons]
    | succ k =>
      simp only [List.eraseIdx_cons_succ, List.countP_cons, ih h]
      omega

theorem map_set_of_eq {α β : Type} {l : List α} {k : Nat} {a b : α} (f : α → β)
    (h : l[k]? = some a) (hf : f b = f a) : (l.set k b).map f = l.map f := by
  refine List.ext_getElem? fun j => ?_
  rw [List.map_set, List.getElem?_set]
  split
  · next e =>
    subst e
    obtain ⟨hlt, hget⟩ := List.getElem?_eq_some_iff.mp h
    simp [hf, hlt, hget]
  · rfl

/-- `eraseP q` takes out one entry that satisfies `q`. -/
theorem countP_eraseP {α : Type} {l : List α} {q : α → Bool} {a : α} (h : a ∈ l)
    (hq : q a = true) (p : α → Bool) :
    ∃ b ∈ l, q b = true ∧ l.countP p = (l.eraseP q).countP p + if p b then 1 else 0 := by
  obtain ⟨b, l₁, l₂, -, hb, hl, he⟩ := List.exists_of_eraseP h hq
  refine ⟨b, by simp [hl], hb, ?_⟩
  rw [he, hl]
  simp only [List.countP_append, List.countP_cons]
  omega

theorem countP_split {α : Type} (l : List α) (p q : α → Bool) :
    l.countP p = l.countP (fun x => p x && q x) + l.countP (fun x => p x && !q x) := by
  rw [List.countP_eq_countP_filter_add l p q, List.countP_filter, List.countP_filter]

/-- The distinct elements that count are those of a part of the list. -/
theorem countP_dedup_of_subset {α : Type} [DecidableEq α] {p q : α → Bool} {l l' : List α}
    (hsub : l' ⊆ l) (h : ∀ x ∈ l', p x = q x) (hnot : ∀ x ∈ l, x ∉ l' → p x = false) :
    l.dedup.countP p = l'.dedup.countP q := by
  rw [List.countP_eq_length_filter, List.countP_eq_length_filter]
  refine List.Perm.length_eq ((List.perm_ext_iff_of_nodup ((List.nodup_dedup l).filter p)
    ((List.nodup_dedup l').filter q)).mpr fun x => ?_)
  simp only [List.mem_filter, List.mem_dedup]
  constructor
  · rintro ⟨hx, hp⟩
    have hx' : x ∈ l' := by
      by_contra hn
      rw [hnot x hx hn] at hp
      cases hp
    exact ⟨hx', (h x hx').symm.trans hp⟩
  · rintro ⟨hx, hq⟩
    exact ⟨hsub hx, (h x hx).trans hq⟩

end Lib
