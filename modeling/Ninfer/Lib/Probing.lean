/-
  Open addressing with linear probing and tombstones.

  A table has `n` cells, each empty, occupied or deleted; an occupied cell has a key. The probe
  of a key starts at its home cell and walks once round the table. A lookup stops at the first
  empty cell; an insertion takes the cell of the key if there is one, else the first deleted
  cell it passed, else the empty cell that ended it.

  `Linked` is what makes the lookup complete: no empty cell lies between the home of a key and
  the cell that holds it. Deleting a cell keeps it, because a tombstone is not empty.
-/
import Mathlib

namespace Lib.Probing

open Function

inductive Kind where
  | empty
  | occupied
  | deleted
  deriving DecidableEq

variable {α κ : Type} (kind : α → Kind) (key : α → κ)

/-- The cells a probe that starts at `b` visits, in order. -/
def probes (n b : Nat) : List Nat := (List.range n).map fun i => (b + i) % n

/-- The lookup along the cells still to visit. -/
def scan [DecidableEq κ] (t : Nat → α) (k : κ) : List Nat → Option Nat
  | [] => none
  | c :: rest =>
    match kind (t c) with
    | .empty => none
    | .occupied => if key (t c) = k then some c else scan t k rest
    | .deleted => scan t k rest

/-- The insertion along the cells still to visit; `tomb` is the first deleted cell passed. -/
def scanInsert [DecidableEq κ] (t : Nat → α) (k : κ) : Option Nat → List Nat → Option Nat
  | tomb, [] => tomb
  | tomb, c :: rest =>
    match kind (t c) with
    | .empty => some (tomb.getD c)
    | .occupied => if key (t c) = k then some c else scanInsert t k tomb rest
    | .deleted => scanInsert t k (some (tomb.getD c)) rest

/-- No empty cell lies between the home `b` and the cell `c`. -/
def Clear (t : Nat → α) (n b c : Nat) : Prop :=
  ∃ i < n, (b + i) % n = c ∧ ∀ j < i, kind (t ((b + j) % n)) ≠ .empty

/-- Every occupied cell is clear of the home of its key, and no two hold one key. -/
structure Linked (home : κ → Nat) (t : Nat → α) (n : Nat) : Prop where
  clear : ∀ c < n, kind (t c) = .occupied → Clear kind t n (home (key (t c))) c
  unique : ∀ c < n, ∀ d < n, kind (t c) = .occupied → kind (t d) = .occupied →
    key (t c) = key (t d) → c = d

section Lookup

variable [DecidableEq κ] {kind key} {t : Nat → α} {k : κ} {n b c : Nat}

theorem mem_probes_lt (hn : 0 < n) (h : c ∈ probes n b) : c < n := by
  obtain ⟨i, -, rfl⟩ := List.mem_map.mp h
  exact Nat.mod_lt _ hn

theorem mem_probes (hb : b < n) (hc : c < n) : c ∈ probes n b := by
  refine List.mem_map.mpr ⟨(c + (n - b)) % n, List.mem_range.mpr (Nat.mod_lt _ (by omega)), ?_⟩
  rw [Nat.add_mod_mod, show b + (c + (n - b)) = c + n by omega, Nat.add_mod_right,
    Nat.mod_eq_of_lt hc]

theorem scan_sound {l : List Nat} (h : scan kind key t k l = some c) :
    c ∈ l ∧ kind (t c) = .occupied ∧ key (t c) = k := by
  induction l with
  | nil => simp [scan] at h
  | cons d rest ih =>
    simp only [scan] at h
    split at h
    · simp at h
    · next hd =>
      split at h
      · next hk =>
        obtain rfl := Option.some.inj h
        exact ⟨List.mem_cons_self, hd, hk⟩
      · obtain ⟨hm, hrest⟩ := ih h
        exact ⟨List.mem_cons_of_mem _ hm, hrest⟩
    · obtain ⟨hm, hrest⟩ := ih h
      exact ⟨List.mem_cons_of_mem _ hm, hrest⟩

/-- A lookup passes every cell that is neither empty nor the key's. -/
theorem scan_append {l₁ l₂ : List Nat} (hne : ∀ d ∈ l₁, kind (t d) ≠ .empty)
    (hk : ∀ d ∈ l₁, kind (t d) = .occupied → key (t d) ≠ k) :
    scan kind key t k (l₁ ++ l₂) = scan kind key t k l₂ := by
  induction l₁ with
  | nil => rfl
  | cons d rest ih =>
    have ih := ih (fun e he => hne e (List.mem_cons_of_mem _ he))
      (fun e he => hk e (List.mem_cons_of_mem _ he))
    simp only [List.cons_append, scan]
    cases hd : kind (t d) with
    | empty => exact absurd hd (hne d List.mem_cons_self)
    | occupied => simp [if_neg (hk d List.mem_cons_self hd), ih]
    | deleted => exact ih

theorem probes_split {i : Nat} (hi : i < n) : probes n b =
    ((List.range i).map fun j => (b + j) % n) ++ (b + i) % n ::
      ((List.range (n - i - 1)).map fun j => (b + (i + 1 + j)) % n) := by
  have hsplit : List.range n = List.range i ++ i :: (List.range (n - i - 1)).map (i + 1 + ·) := by
    conv_lhs => rw [show n = i + (1 + (n - i - 1)) by omega, List.range_add, List.range_add]
    simp [Nat.add_assoc, Function.comp_def]
  rw [probes, hsplit, List.map_append, List.map_cons, List.map_map]
  rfl

/-- The lookup of a key finds its cell, whatever tombstones lie on the way. -/
theorem scan_complete {home : κ → Nat} (h : Linked kind key home t n) (hc : c < n)
    (ho : kind (t c) = .occupied) :
    scan kind key t (key (t c)) (probes n (home (key (t c)))) = some c := by
  obtain ⟨i, hi, hic, hclear⟩ := h.clear c hc ho
  rw [probes_split hi, scan_append]
  · simp [scan, hic, ho]
  · intro d hd
    obtain ⟨j, hj, rfl⟩ := List.mem_map.mp hd
    exact hclear j (List.mem_range.mp hj)
  · intro d hd hdo hdk
    obtain ⟨j, hj, rfl⟩ := List.mem_map.mp hd
    have hjn : (home (key (t c)) + j) % n < n := Nat.mod_lt _ (by omega)
    have hsame := h.unique _ hjn c hc hdo ho hdk
    -- two steps of one walk on the same cell: fewer than `n` apart, so the same step
    have hmod : (home (key (t c)) + j) % n = (home (key (t c)) + i) % n := hsame.trans hic.symm
    have hjlt := List.mem_range.mp hj
    have heq : j % n = i % n := Nat.ModEq.add_left_cancel' (home (key (t c))) hmod
    rw [Nat.mod_eq_of_lt (by omega), Nat.mod_eq_of_lt hi] at heq
    omega

theorem scan_eq_some_iff {home : κ → Nat} (h : Linked kind key home t n) (hn : 0 < n) :
    scan kind key t k (probes n (home k)) = some c ↔
      c < n ∧ kind (t c) = .occupied ∧ key (t c) = k := by
  refine ⟨fun hs => ?_, ?_⟩
  · obtain ⟨hm, ho, hk⟩ := scan_sound hs
    exact ⟨mem_probes_lt hn hm, ho, hk⟩
  · rintro ⟨hc, ho, rfl⟩
    exact scan_complete h hc ho

end Lookup

section Insertion

variable {kind key} {t : Nat → α} {k : κ} {n b c : Nat}

/-- The first `i` cells of the walk are neither empty nor the key's. -/
def Passed (kind : α → Kind) (key : α → κ) (t : Nat → α) (k : κ) (n b i : Nat) : Prop :=
  ∀ j < i, kind (t ((b + j) % n)) ≠ .empty ∧
    (kind (t ((b + j) % n)) = .occupied → key (t ((b + j) % n)) ≠ k)

/-- The walk ended without the key: at an empty cell or after a full turn. -/
def Missed (kind : α → Kind) (key : α → κ) (t : Nat → α) (k : κ) (n b : Nat) : Prop :=
  ∃ i ≤ n, Passed kind key t k n b i ∧ (i < n → kind (t ((b + i) % n)) = .empty)

/-- What the walk knows of the tombstone it carries after `i` cells. -/
def Carries (kind : α → Kind) (t : Nat → α) (n b i : Nat) : Option Nat → Prop
  | none => ∀ j < i, kind (t ((b + j) % n)) = .occupied
  | some d => kind (t d) = .deleted ∧ Clear kind t n b d

theorem Passed.succ {i : Nat} (h : Passed kind key t k n b i) (he : kind (t ((b + i) % n)) ≠ .empty)
    (hk : kind (t ((b + i) % n)) = .occupied → key (t ((b + i) % n)) ≠ k) :
    Passed kind key t k n b (i + 1) := by
  intro j hj
  rcases Nat.lt_succ_iff_lt_or_eq.mp hj with hj | rfl
  · exact h j hj
  · exact ⟨he, hk⟩

theorem Passed.clear {i : Nat} (h : Passed kind key t k n b i) (hi : i < n) :
    Clear kind t n b ((b + i) % n) :=
  ⟨i, hi, rfl, fun j hj => (h j hj).1⟩

/-- A key whose walk missed it is in no cell. -/
theorem Missed.absent {home : κ → Nat} (h : Missed kind key t k n (home k))
    (hl : Linked kind key home t n) (hc : c < n) (ho : kind (t c) = .occupied) :
    key (t c) ≠ k := by
  rintro rfl
  obtain ⟨i, -, hp, hend⟩ := h
  obtain ⟨j, hj, hjc, hclear⟩ := hl.clear c hc ho
  by_cases hji : j < i
  · exact (hp j hji).2 (by rw [hjc]; exact ho) (by rw [hjc])
  · rcases Nat.lt_or_eq_of_le (Nat.not_lt.mp hji) with hlt | rfl
    · exact hclear i hlt (hend (by omega))
    · have := hend hj
      rw [hjc, ho] at this
      simp at this

variable [DecidableEq κ]

/-- The walk of an insertion from its `i`-th cell on. -/
theorem scanInsert_walk {m i : Nat} {tomb : Option Nat} (hm : i + m = n)
    (hp : Passed kind key t k n b i) (ht : Carries kind t n b i tomb) :
    match scanInsert kind key t k tomb ((List.range' i m).map fun j => (b + j) % n) with
    | some c => (kind (t c) = .occupied ∧ key (t c) = k ∧ c < n) ∨
        (kind (t c) ≠ .occupied ∧ Clear kind t n b c ∧ Missed kind key t k n b)
    | none => ∀ j < n, kind (t ((b + j) % n)) = .occupied := by
  induction m generalizing i tomb with
  | zero =>
    obtain rfl : i = n := by omega
    cases tomb with
    | none => exact ht
    | some d =>
      exact .inr ⟨by simp [ht.1], ht.2, i, Nat.le_refl _, hp, fun h => absurd h (by omega)⟩
  | succ m ih =>
    have hi : i < n := by omega
    rw [List.range'_succ, List.map_cons, scanInsert]
    cases hk : kind (t ((b + i) % n)) with
    | empty =>
      refine .inr ?_
      cases tomb with
      | none => exact ⟨by simp [hk], hp.clear hi, i, by omega, hp, fun _ => hk⟩
      | some d => exact ⟨by simp [ht.1], ht.2, i, by omega, hp, fun _ => hk⟩
    | occupied =>
      by_cases hkey : key (t ((b + i) % n)) = k
      · rw [if_pos hkey]
        have hpos : 0 < n := by omega
        exact .inl ⟨hk, hkey, Nat.mod_lt _ hpos⟩
      · rw [if_neg hkey]
        refine ih (by omega) (hp.succ (by simp [hk]) fun _ => hkey) ?_
        cases tomb with
        | none =>
          intro j hj
          rcases Nat.lt_succ_iff_lt_or_eq.mp hj with hj | rfl
          · exact ht j hj
          · exact hk
        | some d => exact ht
    | deleted =>
      refine ih (by omega) (hp.succ (by simp [hk]) (by simp [hk])) ?_
      cases tomb with
      | none => exact ⟨hk, hp.clear hi⟩
      | some d => exact ht

theorem probes_eq_range' : probes n b = (List.range' 0 n).map fun j => (b + j) % n := by
  rw [probes, List.range_eq_range']

/-- The walk from its start, with no tombstone met yet. -/
theorem scanInsert_start (kind : α → Kind) (key : α → κ) (t : Nat → α) (k : κ) (n b : Nat) :
    match scanInsert kind key t k none (probes n b) with
    | some c => (kind (t c) = .occupied ∧ key (t c) = k ∧ c < n) ∨
        (kind (t c) ≠ .occupied ∧ Clear kind t n b c ∧ Missed kind key t k n b)
    | none => ∀ j < n, kind (t ((b + j) % n)) = .occupied := by
  rw [probes_eq_range']
  exact scanInsert_walk (Nat.zero_add n) (fun j hj => absurd hj (Nat.not_lt_zero j))
    (fun j hj => absurd hj (Nat.not_lt_zero j))

/-- Where an insertion goes: the cell of the key, or a free cell clear of its home when no cell
    holds the key. -/
theorem scanInsert_some {home : κ → Nat} (hl : Linked kind key home t n)
    (h : scanInsert kind key t k none (probes n (home k)) = some c) :
    (c < n ∧ kind (t c) = .occupied ∧ key (t c) = k) ∨
      (kind (t c) ≠ .occupied ∧ Clear kind t n (home k) c ∧
        ∀ d < n, kind (t d) = .occupied → key (t d) ≠ k) := by
  have hw := scanInsert_start kind key t k n (home k)
  rw [h] at hw
  rcases hw with ⟨ho, hk, hc⟩ | ⟨ho, hclear, hmiss⟩
  · exact .inl ⟨hc, ho, hk⟩
  · exact .inr ⟨ho, hclear, fun d hd hdo => hmiss.absent hl hd hdo⟩

/-- With a free cell anywhere in the table the insertion finds a place. -/
theorem scanInsert_isSome (hb : b < n) (hc : c < n) (hfree : kind (t c) ≠ .occupied) :
    ∃ d, scanInsert kind key t k none (probes n b) = some d := by
  have hw := scanInsert_start kind key t k n b
  cases hs : scanInsert kind key t k none (probes n b) with
  | some d => exact ⟨d, rfl⟩
  | none =>
    rw [hs] at hw
    obtain ⟨j, hj, rfl⟩ := List.mem_map.mp (mem_probes hb hc)
    exact absurd (hw j (List.mem_range.mp hj)) hfree

theorem Clear.lt (h : Clear kind t n b c) : c < n := by
  obtain ⟨i, hi, rfl, -⟩ := h
  exact Nat.mod_lt _ (by omega)

theorem Clear.mono {u : Nat → α} (h : Clear kind t n b c)
    (hu : ∀ d < n, kind (u d) = .empty → kind (t d) = .empty) : Clear kind u n b c := by
  obtain ⟨i, hi, hc, hclear⟩ := h
  exact ⟨i, hi, hc, fun j hj he => hclear j hj (hu _ (Nat.mod_lt _ (by omega)) he)⟩

end Insertion

section Change

variable {kind key} {home : κ → Nat} {t u : Nat → α} {n c : Nat}

theorem linked_of_no_occupied (h : ∀ c < n, kind (t c) ≠ .occupied) : Linked kind key home t n :=
  ⟨fun c hc ho => absurd ho (h c hc), fun c hc _ _ ho => absurd ho (h c hc)⟩

/-- Deleting cells, or changing what they hold beside their key, keeps a table linked. -/
theorem Linked.shrink (h : Linked kind key home t n)
    (hempty : ∀ c < n, kind (u c) = .empty → kind (t c) = .empty)
    (hocc : ∀ c < n, kind (u c) = .occupied → kind (t c) = .occupied ∧ key (u c) = key (t c)) :
    Linked kind key home u n where
  clear c hc ho := by
    obtain ⟨hto, hk⟩ := hocc c hc ho
    rw [hk]
    exact (h.clear c hc hto).mono hempty
  unique c hc d hd hco hdo hkey := by
    obtain ⟨hct, hck⟩ := hocc c hc hco
    obtain ⟨hdt, hdk⟩ := hocc d hd hdo
    exact h.unique c hc d hd hct hdt (by rw [← hck, ← hdk, hkey])

/-- A key enters a cell clear of its home when no other cell holds it. -/
theorem Linked.insert (h : Linked kind key home t n) {a : α} (ha : kind a = .occupied)
    (hclear : Clear kind t n (home (key a)) c)
    (habsent : ∀ d < n, d ≠ c → kind (t d) = .occupied → key (t d) ≠ key a) :
    Linked kind key home (update t c a) n := by
  have hmono : ∀ d < n, kind (update t c a d) = .empty → kind (t d) = .empty := by
    intro d _ hd
    by_cases hdc : d = c
    · subst hdc
      simp [ha] at hd
    · rwa [update_of_ne hdc] at hd
  refine ⟨fun d hd ho => ?_, fun d hd e he hdo heo hkey => ?_⟩
  · by_cases hdc : d = c
    · subst hdc
      rw [update_self]
      exact hclear.mono hmono
    · rw [update_of_ne hdc] at ho ⊢
      exact (h.clear d hd ho).mono hmono
  · by_cases hdc : d = c
    · by_cases hec : e = c
      · rw [hdc, hec]
      · subst hdc
        rw [update_self, update_of_ne hec] at hkey
        rw [update_of_ne hec] at heo
        exact absurd hkey.symm (habsent e he hec heo)
    · by_cases hec : e = c
      · subst hec
        rw [update_self, update_of_ne hdc] at hkey
        rw [update_of_ne hdc] at hdo
        exact absurd hkey (habsent d hd hdc hdo)
      · rw [update_of_ne hdc] at hdo hkey
        rw [update_of_ne hec] at heo hkey
        exact h.unique d hd e he hdo heo hkey

end Change

end Lib.Probing
