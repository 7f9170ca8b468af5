/-
  Prefixes of ordered lists.

  A list whose keys do not decrease is cut by a bound in one place, so the elements within the
  bound are a prefix: what a search for the bound finds, what a scan keeps and what a filter
  keeps are the same list.
-/
import Mathlib

namespace Lib

section Keys

variable {α : Type} (key : α → Nat) {l : List α}

theorem filter_eq_nil_of_lt {t : Nat} (h : ∀ x ∈ l, t < key x) :
    l.filter (fun x => key x ≤ t) = [] := by
  rw [List.filter_eq_nil_iff]
  intro x hx
  have := h x hx
  simp only [decide_eq_true_eq]
  omega

theorem takeWhile_eq_filter (h : l.Pairwise fun x y => key x ≤ key y) (t : Nat) :
    l.takeWhile (fun x => key x ≤ t) = l.filter (fun x => key x ≤ t) := by
  induction l with
  | nil => rfl
  | cons x l ih =>
    rw [List.pairwise_cons] at h
    by_cases hx : key x ≤ t
    · rw [List.takeWhile_cons_of_pos (by simpa using hx),
        List.filter_cons_of_pos (by simpa using hx),
        ih h.2]
    · rw [List.takeWhile_cons_of_neg (by simpa using hx),
        List.filter_cons_of_neg (by simpa using hx)]
      -- beyond the first key over the bound every key is over it
      refine (filter_eq_nil_of_lt key fun y hy => ?_).symm
      have := h.1 y hy
      omega

theorem take_filter_length (h : l.Pairwise fun x y => key x ≤ key y) (t : Nat) :
    l.take (l.filter fun x => key x ≤ t).length = l.filter fun x => key x ≤ t := by
  rw [← takeWhile_eq_filter key h t]
  exact (List.prefix_iff_eq_take.mp (List.takeWhile_prefix _)).symm

/-- Lists that agree within a bound agree at every key within it. -/
theorem filter_key_of_filter_le {m : List α} {t k : Nat} (hk : k ≤ t)
    (h : l.filter (fun x => key x ≤ t) = m.filter fun x => key x ≤ t) :
    l.filter (fun x => key x = k) = m.filter fun x => key x = k := by
  have narrow : ∀ l : List α, l.filter (fun x => key x = k) =
      (l.filter fun x => key x ≤ t).filter fun x => key x = k := by
    intro l
    rw [List.filter_filter]
    refine List.filter_congr fun x _ => ?_
    by_cases hx : key x = k
    · simp [hx, hk]
    · simp [hx]
  rw [narrow l, narrow m, h]

end Keys

theorem getD_of_take_eq {α : Type} {l m : List α} {n i : Nat} (h : l.take n = m.take n)
    (hi : i < n) (d : α) : l.getD i d = m.getD i d := by
  have hget := congrArg (·[i]?) h
  simp only [List.getElem?_take_of_lt hi] at hget
  rw [List.getD_eq_getElem?_getD, List.getD_eq_getElem?_getD, hget]

theorem getD_take {α : Type} (l : List α) {n i : Nat} (hi : i < n) (d : α) :
    (l.take n).getD i d = l.getD i d :=
  getD_of_take_eq (by rw [List.take_take, Nat.min_self]) hi d

theorem drop_length_takeWhile {α : Type} (p : α → Bool) (l : List α) :
    l.drop (l.takeWhile p).length = l.dropWhile p := by
  induction l with
  | nil => rfl
  | cons x l ih =>
    by_cases hx : p x
    · rw [List.takeWhile_cons_of_pos hx, List.dropWhile_cons_of_pos hx, List.length_cons,
        List.drop_succ_cons, ih]
    · rw [List.takeWhile_cons_of_neg hx, List.dropWhile_cons_of_neg hx]
      rfl

end Lib
