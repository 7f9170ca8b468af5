/-
  A shortlist digest is a function of the inputs before its frontier.

  `PrefixInputs.digest` says what the digest at a frontier stands for: the rows before it, the
  rewrite markers at or below it and the Vision items that end at or before it, folded in by
  position. The digests of a prompt, and those of a resident history after any number of
  generated tokens and truncations, are this function at every frontier. Two histories that
  match up to a frontier therefore have the same digest there.
-/
import Ninfer.Lib.Prefixes
import Ninfer.Qwen.PrefixIdentity

namespace Ninfer.Qwen

open Lib

/-! ## Items and frontiers -/

namespace VisionItem

variable (item : VisionItem)

/-- Where the first span begins. -/
def start : Nat := (item.tokenSpans.head?.map (·.begin)).getD 0

/-- Where the last span ends. -/
def stop : Nat :=
  (item.tokenSpans.getLast?.map fun span => span.begin + span.count).getD 0

/-- The frontier divides the tokens of the item. -/
def Straddles (frontier : Nat) : Prop :=
  item.start < frontier ∧ frontier < item.stop
  deriving Decidable

/-- The item covers tokens, and only tokens before `tokens`. -/
structure Within (item : VisionItem) (tokens : Nat) : Prop where
  spans : item.tokenSpans ≠ []
  counted : ∀ span ∈ item.tokenSpans, span.count ≠ 0
  pos : 0 < item.stop
  le : item.stop ≤ tokens

/-- No timestamp is a NaN or the negative zero: equal timestamps have equal bits. -/
def Plain : Prop :=
  ∀ t ∈ item.timestamps, t.isNaN = false ∧ t ≠ Double.negativeZero

end VisionItem

/-- The items and the markers of a prefix of that many tokens, in order. -/
structure Ordered (tokens : Nat) (items : List VisionItem) (rewrites : List Nat) : Prop where
  within : ∀ item ∈ items, item.Within tokens
  sorted : items.Pairwise fun a b => a.stop ≤ b.stop
  markers : rewrites.Pairwise (· < ·)
  bounded : ∀ r ∈ rewrites, 0 < r ∧ r ≤ tokens
  fits : tokens ≤ maxSize

namespace Ordered

variable {tokens : Nat} {items : List VisionItem} {rewrites : List Nat}

section

variable (h : Ordered tokens items rewrites)

include h

theorem mono {more : Nat} (hle : tokens ≤ more)
    (hfit : more ≤ maxSize) : Ordered more items rewrites where
  within := fun item hi =>
    { spans := (h.within item hi).spans
      counted := (h.within item hi).counted
      pos := (h.within item hi).pos
      le := (h.within item hi).le.trans hle }
  sorted := h.sorted
  markers := h.markers
  bounded := fun r hr => ⟨(h.bounded r hr).1, (h.bounded r hr).2.trans hle⟩
  fits := hfit

theorem cut {fewer : Nat} (hle : fewer ≤ tokens) :
    Ordered fewer (items.filter fun item => item.stop ≤ fewer)
      (rewrites.filter fun r => r ≤ fewer) where
  within := by
    intro item hi
    rw [List.mem_filter, decide_eq_true_eq] at hi
    have := h.within item hi.1
    exact ⟨this.spans, this.counted, this.pos, hi.2⟩
  sorted := h.sorted.filter _
  markers := h.markers.filter _
  bounded := by
    intro r hr
    rw [List.mem_filter, decide_eq_true_eq] at hr
    exact ⟨(h.bounded r hr.1).1, hr.2⟩
  fits := hle.trans h.fits

theorem upTo_rewrites (count : Nat) :
    upTo rewrites count = rewrites.filter fun r => r ≤ count :=
  takeWhile_eq_filter (fun r => r) (h.markers.imp fun hlt => hlt.le) count

end

end Ordered

variable {items : List VisionItem} {size tokens promptTokens i : Nat} {rewrites : List Nat}
  {p : PreparedPromptData}

theorem prefixItemCountFrom_eq (hw : ∀ item ∈ items, item.Within size)
    (hs : items.Pairwise fun a b => a.stop ≤ b.stop) (hfit : size ≤ maxSize) (sawSuffix : Bool)
    (count : Nat) (hsaw : sawSuffix = true → ∀ item ∈ items, tokens < item.stop) :
    prefixItemCountFrom tokens items sawSuffix count =
      if ∃ item ∈ items, item.Straddles tokens then none
      else some (count + (items.filter fun item => item.stop ≤ tokens).length) := by
  induction items generalizing sawSuffix count with
  | nil => simp [prefixItemCountFrom]
  | cons item rest ih =>
    rw [List.pairwise_cons] at hs
    have hitem := hw item (List.mem_cons_self ..)
    have hrest := ih (fun x hx => hw x (List.mem_cons_of_mem _ hx)) hs.2
    obtain ⟨first, hfirst⟩ := Option.ne_none_iff_exists'.mp
      (mt List.head?_eq_none_iff.mp hitem.spans)
    obtain ⟨last, hlast⟩ := Option.ne_none_iff_exists'.mp
      (mt List.getLast?_eq_none_iff.mp hitem.spans)
    have hstart : item.start = first.begin := by simp [VisionItem.start, hfirst]
    have hstop : item.stop = last.begin + last.count := by simp [VisionItem.stop, hlast]
    have hc1 := hitem.counted first (List.mem_of_mem_head? hfirst)
    have hc2 := hitem.counted last (List.mem_of_getLast? hlast)
    have hle := hitem.le
    have hguard : ¬ (first.count = 0 ∨ last.count = 0 ∨ last.begin > maxSize - last.count) := by
      omega
    simp only [prefixItemCountFrom, hfirst, hlast, if_neg hguard, List.exists_mem_cons_iff]
    by_cases hend : item.stop ≤ tokens
    · have hnot : ¬ item.Straddles tokens := fun h => absurd h.2 (by omega)
      have hfresh : sawSuffix = false := by
        by_contra hsaw'
        have := hsaw (by simpa using hsaw') item (List.mem_cons_self ..)
        omega
      rw [if_pos (by omega), hfresh, List.filter_cons_of_pos (by simpa using hend)]
      simp only [Bool.false_eq_true, if_false, hnot, false_or, List.length_cons]
      rw [hrest false (count + 1) (by simp)]
      congr 2
      omega
    · rw [if_neg (by omega), List.filter_cons_of_neg (by simpa using hend)]
      by_cases hbegin : tokens ≤ first.begin
      · have hnot : ¬ item.Straddles tokens := fun h => absurd h.1 (by omega)
        simp only [if_pos hbegin, hnot, false_or]
        refine hrest true count fun _ x hx => ?_
        have := hs.1 x hx
        omega
      · rw [if_neg hbegin, if_pos (.inl ⟨by omega, by omega⟩)]

/-- On ordered items the scan counts the items that end within the frontier, unless the
frontier divides one. -/
theorem Ordered.prefixItemCount (h : Ordered size items rewrites) (tokens : Nat) :
    prefixItemCount items tokens = if ∃ item ∈ items, item.Straddles tokens then none
      else some (items.filter fun item => item.stop ≤ tokens).length := by
  rw [Qwen.prefixItemCount, prefixItemCountFrom_eq h.within h.sorted h.fits false 0 (by simp)]
  simp

/-! ## The digest at a frontier -/

/-- The model inputs of a prefix. -/
structure PrefixInputs where
  row : Nat → Row
  items : List VisionItem
  rewrites : List Nat

namespace PrefixInputs

/-- What the digest at a frontier stands for. -/
def digest (p : PrefixInputs) : Nat → DigestPair
  | 0 => digestOffset
  | k + 1 =>
    (p.items.filter fun item => item.stop = k + 1).foldl mixVisionItem
      ((p.rewrites.filter fun r => r = k + 1).foldl mixRewrite
        (mixRow (p.digest k) (p.row k))).settled

def digests (p : PrefixInputs) (tokens : Nat) : List DigestPair :=
  (List.range (tokens + 1)).map p.digest

variable (p : PrefixInputs) (n : Nat)

@[simp] theorem length_digests : (p.digests n).length = n + 1 := by simp [digests]

theorem digests_succ : p.digests (n + 1) = p.digests n ++ [p.digest (n + 1)] := by
  rw [digests, List.range_succ, List.map_append]
  rfl

theorem getLast_digests (d : DigestPair) : (p.digests n).getLast?.getD d = p.digest n := by
  rw [digests, List.range_succ, List.map_append]
  simp

theorem digests_ne_nil : p.digests n ≠ [] := by
  intro h
  have := congrArg List.length h
  simp at this

theorem take_digests {k : Nat} (hk : k ≤ n) : (p.digests n).take (k + 1) = p.digests k := by
  rw [digests, ← List.map_take, List.take_range, Nat.min_eq_left (by omega), digests]

variable {p n} {q : PrefixInputs}

/-- The inputs agree up to the frontier. -/
structure AgreeTo (p q : PrefixInputs) (n : Nat) : Prop where
  row : ∀ i < n, p.row i = q.row i
  items : (p.items.filter fun item => item.stop ≤ n) = q.items.filter fun item => item.stop ≤ n
  rewrites : (p.rewrites.filter fun r => r ≤ n) = q.rewrites.filter fun r => r ≤ n

/-- The digest at a frontier depends on the inputs before it only. -/
theorem AgreeTo.digest (h : AgreeTo p q n) {k : Nat} (hk : k ≤ n) : p.digest k = q.digest k := by
  induction k with
  | zero => rfl
  | succ k ih =>
    rw [PrefixInputs.digest, PrefixInputs.digest, ih (by omega), h.row k (by omega),
      filter_key_of_filter_le VisionItem.stop hk h.items,
      filter_key_of_filter_le (fun r => r) hk h.rewrites]

theorem AgreeTo.digests (h : AgreeTo p q n) : p.digests n = q.digests n := by
  refine List.map_congr_left fun k hk => ?_
  rw [List.mem_range] at hk
  exact h.digest (by omega)

/-- A further row, with no item and no marker of its own. -/
theorem digest_plain (hi : ∀ item ∈ p.items, item.stop ≤ n) (hr : ∀ r ∈ p.rewrites, r ≤ n) :
    p.digest (n + 1) = (mixRow (p.digest n) (p.row n)).settled := by
  have items : (p.items.filter fun item => item.stop = n + 1) = [] := by
    rw [List.filter_eq_nil_iff]
    intro item hitem
    have := hi item hitem
    simp only [decide_eq_true_eq]
    omega
  have rewrites : (p.rewrites.filter fun r => r = n + 1) = [] := by
    rw [List.filter_eq_nil_iff]
    intro r hrew
    have := hr r hrew
    simp only [decide_eq_true_eq]
    omega
  rw [digest, items, rewrites, List.foldl_nil, List.foldl_nil]

end PrefixInputs

/-! ## The digests of a prompt -/

def PreparedPromptData.inputs (p : PreparedPromptData) : PrefixInputs :=
  { row := p.row
    items := p.visionItems
    rewrites := p.rewriteExecutionFrontiers }

theorem mixRewrites_eq {frontier : Nat} (hs : rewrites.Pairwise (· < ·))
    (hge : ∀ r ∈ rewrites, frontier ≤ r) (digest : DigestPair) :
    mixRewrites frontier rewrites digest =
      ((rewrites.filter fun r => r = frontier).foldl mixRewrite digest,
        rewrites.filter fun r => frontier < r) := by
  induction rewrites generalizing digest with
  | nil => rfl
  | cons r rest ih =>
    rw [List.pairwise_cons] at hs
    have hr := hge r (List.mem_cons_self ..)
    by_cases heq : r = frontier
    · rw [mixRewrites, if_pos heq, ih hs.2 fun x hx => hge x (List.mem_cons_of_mem _ hx),
        List.filter_cons_of_pos (by simpa using heq), List.filter_cons_of_neg (by simp; omega)]
      rfl
    · have later : ∀ x ∈ r :: rest, frontier < x := by
        intro x hx
        rcases List.mem_cons.mp hx with rfl | hx
        · omega
        · have := hs.1 x hx
          omega
      have none : ((r :: rest).filter fun x => x = frontier) = [] := by
        rw [List.filter_eq_nil_iff]
        intro x hx
        have := later x hx
        simp only [decide_eq_true_eq]
        omega
      have all : ((r :: rest).filter fun x => frontier < x) = r :: rest := by
        rw [List.filter_eq_self]
        intro x hx
        simpa using later x hx
      rw [mixRewrites, if_neg heq, none, all, List.foldl_nil]

theorem appendDigest_digests (q : PrefixInputs) (n : Nat) (row : Row)
    (hs : rewrites.Pairwise (· < ·)) (hge : ∀ r ∈ rewrites, n < r) :
    appendDigest (q.digests n) row rewrites =
      (q.digests n ++ [((rewrites.filter fun r => r = n + 1).foldl mixRewrite
        (mixRow (q.digest n) row)).settled], rewrites.filter fun r => n + 1 < r) := by
  rw [appendDigest, q.length_digests, q.getLast_digests, mixRewrites_eq hs hge]

theorem checkedSpans_ok {spans : List TokenSpan} {previous stop : Nat}
    (h : checkedSpans promptTokens spans previous = .ok stop) :
    (∀ span ∈ spans, span.count ≠ 0 ∧ span.begin + span.count ≤ promptTokens) ∧
      stop = (spans.getLast?.map fun span => span.begin + span.count).getD previous := by
  induction spans generalizing previous with
  | nil =>
    cases h
    simp
  | cons span rest ih =>
    rw [checkedSpans] at h
    split at h
    · cases h
    · rename_i hguard
      obtain ⟨hall, hstop⟩ := ih h
      refine ⟨fun x hx => ?_, ?_⟩
      · rcases List.mem_cons.mp hx with rfl | hx
        · omega
        · exact hall x hx
      · rw [hstop, List.getLast?_cons]
        cases rest.getLast? <;> rfl

theorem checkedVisionEnd_ok {item : VisionItem} {promptTokens stop : Nat}
    (h : checkedVisionEnd item promptTokens = .ok stop) :
    item.Within promptTokens ∧ stop = item.stop := by
  rw [checkedVisionEnd] at h
  split at h
  · cases h
  · rename_i hspans
    obtain ⟨hall, hstop⟩ := checkedSpans_ok h
    obtain ⟨last, hlast⟩ := Option.ne_none_iff_exists'.mp (mt List.getLast?_eq_none_iff.mp hspans)
    have hend : item.stop = last.begin + last.count := by simp [VisionItem.stop, hlast]
    have := hall last (List.mem_of_getLast? hlast)
    refine ⟨⟨hspans, fun span hs => (hall span hs).1, by omega, by omega⟩, ?_⟩
    rw [hstop, VisionItem.stop]

/-- The cursor of `assign` over the items: the end of the item at hand is known and lies
beyond the frontier. -/
def CursorAt (promptTokens frontier : Nat) (items : List VisionItem) (nextEnd : Nat) : Prop :=
  ∀ item ∈ items.head?, item.Within promptTokens ∧ nextEnd = item.stop ∧ frontier < nextEnd

theorem mixVisionItems_ok {nextEnd nextEnd' : Nat} {items' : List VisionItem}
    {digest digest' : DigestPair} (hcur : CursorAt promptTokens i items nextEnd)
    (h : mixVisionItems promptTokens (i + 1) items nextEnd digest =
      .ok (digest', items', nextEnd')) :
    ∃ done, items = done ++ items' ∧ (∀ item ∈ done, item.Within promptTokens ∧ item.stop = i + 1) ∧
      digest' = done.foldl mixVisionItem digest ∧
      CursorAt promptTokens (i + 1) items' nextEnd' := by
  induction items generalizing nextEnd digest with
  | nil =>
    cases h
    exact ⟨[], rfl, by simp, rfl, by simp [CursorAt]⟩
  | cons item rest ih =>
    obtain ⟨hitem, hend, hlt⟩ := hcur item rfl
    rw [mixVisionItems.eq_def] at h
    simp only at h
    split at h
    · rename_i hat
      cases rest with
      | nil =>
        cases h
        exact ⟨[item], rfl, by simpa using ⟨hitem, hend.symm.trans hat⟩, rfl, by simp [CursorAt]⟩
      | cons next rest =>
        obtain ⟨stop, hstop, h⟩ := bind_eq_ok h
        obtain ⟨hnext, rfl⟩ := checkedVisionEnd_ok hstop
        split at h
        · cases h
        · rename_i hge
          have hcur : CursorAt promptTokens i (next :: rest) next.stop := by
            intro x hx
            obtain rfl : next = x := by simpa using hx
            exact ⟨hnext, rfl, by omega⟩
          obtain ⟨done, hsplit, hdone, hdigest, hcur'⟩ := ih hcur h
          refine ⟨item :: done, by rw [hsplit]; rfl, fun x hx => ?_, hdigest, hcur'⟩
          rcases List.mem_cons.mp hx with rfl | hx
          · exact ⟨hitem, hend.symm.trans hat⟩
          · exact hdone x hx
    · rename_i hat
      cases h
      refine ⟨[], rfl, by simp, rfl, fun x hx => ?_⟩
      obtain rfl : item = x := by simpa using hx
      exact ⟨hitem, hend, by omega⟩

/-- The loop of `assign` before the row at `i`: `done` are the items it went past. -/
structure AssignedTo (p : PreparedPromptData) (i : Nat) (done : List VisionItem)
    (a : Assigning) : Prop where
  items : p.visionItems = done ++ a.items
  within : ∀ item ∈ done, item.Within p.tokenIds.length ∧ item.stop ≤ i
  sorted : done.Pairwise fun a b => a.stop ≤ b.stop
  rewrites : a.rewrites = p.rewriteExecutionFrontiers.filter fun r => i < r
  digests : a.digests = PrefixInputs.digests { p.inputs with items := done } i
  cursor : CursorAt p.tokenIds.length i a.items a.nextVisionEnd

/-- The items past the frontier `i` do not count below it. -/
theorem PrefixInputs.agreeTo_append (q : PrefixInputs) (done : List VisionItem)
    {more : List VisionItem} (hmore : ∀ item ∈ more, i < item.stop) :
    AgreeTo { q with items := done ++ more } { q with items := done } i where
  row := fun _ _ => rfl
  items := by
    simp only [List.filter_append]
    rw [filter_eq_nil_of_lt VisionItem.stop hmore, List.append_nil]
  rewrites := rfl

theorem AssignedTo.step {done : List VisionItem} {a a' : Assigning}
    (hs : p.rewriteExecutionFrontiers.Pairwise (· < ·)) (inv : AssignedTo p i done a)
    (h : assignStep p i a = .ok a') : ∃ more, AssignedTo p (i + 1) (done ++ more) a' := by
  have hge : ∀ r ∈ p.rewriteExecutionFrontiers.filter (fun r => i < r), i < r := fun r hr => by
    simpa using (List.mem_filter.mp hr).2
  have hat : ((p.rewriteExecutionFrontiers.filter fun r => i < r).filter fun r => r = i + 1) =
      p.rewriteExecutionFrontiers.filter fun r => r = i + 1 := by
    rw [List.filter_filter]
    refine List.filter_congr fun r _ => ?_
    by_cases hr : r = i + 1 <;> simp [hr]
  have hafter : ((p.rewriteExecutionFrontiers.filter fun r => i < r).filter fun r => i + 1 < r) =
      p.rewriteExecutionFrontiers.filter fun r => i + 1 < r := by
    rw [List.filter_filter]
    refine List.filter_congr fun r _ => ?_
    by_cases hr : i + 1 < r
    · simp [hr, show i < r by omega]
    · simp [hr]
  rw [assignStep, inv.digests, inv.rewrites,
    appendDigest_digests _ i (p.row i) (hs.filter _) hge, hat, hafter] at h
  obtain ⟨⟨last, items, nextEnd⟩, hmix, h⟩ := bind_eq_ok h
  cases h
  obtain ⟨more, hsplit, hmore, rfl, hcur⟩ := mixVisionItems_ok inv.cursor hmix
  have hlater : ∀ item ∈ more, i < item.stop := fun item hi => by
    have := (hmore item hi).2
    omega
  refine ⟨more, ?_⟩
  constructor
  case items => rw [inv.items, hsplit, List.append_assoc]
  case within =>
    intro item hi
    rcases List.mem_append.mp hi with hi | hi
    · exact ⟨(inv.within item hi).1, (inv.within item hi).2.trans (by omega)⟩
    · exact ⟨(hmore item hi).1, (hmore item hi).2.le⟩
  case sorted =>
    rw [List.pairwise_append]
    refine ⟨inv.sorted, List.pairwise_of_forall_mem_list fun x hx y hy => ?_, fun x hx y hy => ?_⟩
    · rw [(hmore x hx).2, (hmore y hy).2]
    · have := (inv.within x hx).2
      have := (hmore y hy).2
      omega
  case rewrites => rfl
  case digests =>
    -- below the new frontier nothing changed; at it exactly the new items are mixed in
    have hbelow := PrefixInputs.agreeTo_append p.inputs done hlater
    have hitems : ((done ++ more).filter fun item => item.stop = i + 1) = more := by
      rw [List.filter_append, List.filter_eq_nil_iff.mpr, List.filter_eq_self.mpr, List.nil_append]
      · intro item hi
        simpa using (hmore item hi).2
      · intro item hi
        have := (inv.within item hi).2
        simp only [decide_eq_true_eq]
        omega
    rw [PrefixInputs.digests_succ, hbelow.digests, PrefixInputs.digest, hbelow.digest le_rfl]
    simp only [hitems, List.dropLast_concat, List.getLast?_append, List.getLast?_singleton,
      Option.some_or, Option.getD_some]
    rfl
  case cursor => exact hcur

theorem assignLoop_ok {start : Assigning} (hs : p.rewriteExecutionFrontiers.Pairwise (· < ·))
    (h0 : AssignedTo p 0 [] start) {n : Nat} {a : Assigning} (h : assignLoop p start n = .ok a) :
    ∃ done, AssignedTo p n done a := by
  induction n generalizing a with
  | zero =>
    cases h
    exact ⟨[], h0⟩
  | succ n ih =>
    obtain ⟨b, hb, hstep⟩ := bind_eq_ok h
    obtain ⟨done, inv⟩ := ih hb
    obtain ⟨more, inv'⟩ := inv.step hs hstep
    exact ⟨done ++ more, inv'⟩

theorem checkRewrites_ok {previous : Nat} (h : checkRewrites tokens rewrites previous = .ok ()) :
    rewrites.Pairwise (· < ·) ∧ ∀ r ∈ rewrites, previous < r ∧ 0 < r ∧ r ≤ tokens := by
  induction rewrites generalizing previous with
  | nil => simp
  | cons r rest ih =>
    rw [checkRewrites] at h
    split at h
    · cases h
    · rename_i hguard
      obtain ⟨hs, hall⟩ := ih h
      refine ⟨List.pairwise_cons.mpr ⟨fun x hx => (hall x hx).1, hs⟩, fun x hx => ?_⟩
      rcases List.mem_cons.mp hx with rfl | hx
      · omega
      · have := hall x hx
        omega

theorem firstVisionEnd_ok {firstEnd : Nat}
    (h : PrefixShortlistDigests.firstVisionEnd p = .ok firstEnd) :
    CursorAt p.tokenIds.length 0 p.visionItems firstEnd := by
  intro item hitem
  rw [PrefixShortlistDigests.firstVisionEnd] at h
  cases hv : p.visionItems with
  | nil =>
    rw [hv] at hitem
    cases hitem
  | cons first rest =>
    rw [hv] at h hitem
    obtain rfl : first = item := by simpa using hitem
    obtain ⟨hw, rfl⟩ := checkedVisionEnd_ok h
    exact ⟨hw, rfl, hw.pos⟩

/-- What `assign` accepts is ordered, and the digests are the digest at every frontier. -/
theorem assign_digests {d : List DigestPair} (h : PrefixShortlistDigests.assign p = .ok d) :
    p.WellShaped ∧ Ordered p.tokenIds.length p.visionItems p.rewriteExecutionFrontiers ∧
      d = p.inputs.digests p.tokenIds.length := by
  obtain ⟨_, hshape, h⟩ := bind_eq_ok h
  obtain ⟨_, hrew, h⟩ := bind_eq_ok h
  obtain ⟨_, hcap, h⟩ := bind_eq_ok h
  obtain ⟨firstEnd, hfirst, h⟩ := bind_eq_ok h
  obtain ⟨a, hloop, h⟩ := bind_eq_ok h
  obtain ⟨_, hleft, h⟩ := bind_eq_ok h
  obtain ⟨_, hitems, h⟩ := bind_eq_ok h
  cases h
  obtain ⟨hs, hall⟩ := checkRewrites_ok hrew
  have h0 : AssignedTo p 0 []
      { digests := [digestOffset]
        rewrites := p.rewriteExecutionFrontiers
        items := p.visionItems
        nextVisionEnd := firstEnd } :=
    { items := rfl
      within := by simp
      sorted := List.Pairwise.nil
      rewrites := by
        refine (List.filter_eq_self.mpr fun r hr => ?_).symm
        simpa using (hall r hr).2.1
      digests := rfl
      cursor := firstVisionEnd_ok hfirst }
  obtain ⟨done, inv⟩ := assignLoop_ok hs h0 hloop
  obtain rfl : p.visionItems = done := by
    have hnil : a.items = [] := not_not.mp (refuse_ok hitems)
    rw [inv.items, hnil, List.append_nil]
  refine ⟨not_not.mp (refuse_ok hshape), ?_, inv.digests⟩
  exact
    { within := fun item hi => (inv.within item hi).1
      sorted := inv.sorted
      markers := hs
      bounded := fun r hr => (hall r hr).2
      fits := (not_le.mp (refuse_ok hcap)).le }

end Ninfer.Qwen
