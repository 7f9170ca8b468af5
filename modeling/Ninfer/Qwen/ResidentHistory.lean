/-
  Resident histories and the prompts that match them.

  `Resident.Coherent` holds after every history: the three records of a resident describe the
  same inputs, and its digests are the digest of those inputs at every frontier. The exact match
  is then characterised by the inputs alone, and a match up to a frontier never hides behind
  different digests.
-/
import Ninfer.Qwen.PrefixDigests

namespace Ninfer.Qwen

open Lib

/-! ## The inputs of a resident -/

namespace Resident

def inputs (r : Resident) : PrefixInputs :=
  { row := fun i =>
      { token := r.tokens.getD i 0
        tokenType := r.identity.tokenTypes.getD i 0
        positions := (r.identity.positions.1.getD i 0, r.identity.positions.2.1.getD i 0,
          r.identity.positions.2.2.getD i 0) }
    items := r.identity.visionItems
    rewrites := r.identity.rewriteExecutionFrontiers }

structure Coherent (r : Resident) : Prop where
  types : r.identity.tokenTypes.length = r.tokens.length
  axis0 : r.identity.positions.1.length = r.tokens.length
  axis1 : r.identity.positions.2.1.length = r.tokens.length
  axis2 : r.identity.positions.2.2.length = r.tokens.length
  ordered : Ordered r.tokens.length r.identity.visionItems r.identity.rewriteExecutionFrontiers
  digests : r.digests = r.inputs.digests r.tokens.length

end Resident

namespace PreparedPromptData

variable {p : PreparedPromptData}

theorem length_axis (h : p.WellShaped) {i : Nat} (hi : i < 3) :
    (p.axis i).length = p.tokenIds.length := by
  have hmul : i * p.tokenIds.length ≤ 2 * p.tokenIds.length := Nat.mul_le_mul_right _ (by omega)
  rw [axis, List.length_take, List.length_drop, h.2]
  omega

theorem getD_axis (p : PreparedPromptData) {i k : Nat} (hk : k < p.tokenIds.length) :
    (p.axis i).getD k 0 = p.positions.getD (i * p.tokenIds.length + k) 0 := by
  rw [axis, getD_take _ hk, List.getD_eq_getElem?_getD, List.getElem?_drop,
    List.getD_eq_getElem?_getD]

end PreparedPromptData

variable {d : List DigestPair} {i : ResidentPrefixIdentity} {r : Resident} {ropeDelta : Int32}

theorem Resident.coherent_assign {p : PreparedPromptData}
    (hi : ResidentPrefixIdentity.assign p = .ok i) (hd : PrefixShortlistDigests.assign p = .ok d) :
    Resident.Coherent ⟨p.tokenIds, i, d⟩ := by
  obtain ⟨hshape, hord, rfl⟩ := assign_digests hd
  rw [ResidentPrefixIdentity.assign, if_neg (not_not.mpr hshape)] at hi
  cases hi
  have hagree : PrefixInputs.AgreeTo p.inputs
      (Resident.inputs ⟨p.tokenIds, ⟨p.tokenTypes, (p.axis 0, p.axis 1, p.axis 2), p.visionItems,
        p.rewriteExecutionFrontiers⟩, p.inputs.digests p.tokenIds.length⟩) p.tokenIds.length := by
    refine ⟨fun k hk => ?_, rfl, rfl⟩
    simp only [PreparedPromptData.inputs, Resident.inputs, PreparedPromptData.row, p.getD_axis hk]
    simp
  exact
    { types := hshape.1
      axis0 := PreparedPromptData.length_axis hshape (by omega)
      axis1 := PreparedPromptData.length_axis hshape (by omega)
      axis2 := PreparedPromptData.length_axis hshape (by omega)
      ordered := hord
      digests := hagree.digests }

/-! ## Generated tokens -/

/-- One generated token on all three records. -/
def Resident.push (r : Resident) (token value : Int32) : Resident :=
  { tokens := r.tokens ++ [token]
    identity := r.identity.pushGenerated value
    digests :=
      (appendDigest r.digests { token, tokenType := 0, positions := (value, value, value) } []).1 }

theorem Resident.Coherent.push (h : r.Coherent) (token value : Int32)
    (hfit : r.tokens.length + 1 ≤ maxSize) : (r.push token value).Coherent := by
  have hbelow : PrefixInputs.AgreeTo (r.push token value).inputs r.inputs r.tokens.length := by
    refine ⟨fun k hk => ?_, rfl, rfl⟩
    simp only [Resident.inputs, Resident.push, ResidentPrefixIdentity.pushGenerated]
    rw [List.getD_append _ _ _ _ hk, List.getD_append _ _ _ _ (h.types ▸ hk),
      List.getD_append _ _ _ _ (h.axis0 ▸ hk), List.getD_append _ _ _ _ (h.axis1 ▸ hk),
      List.getD_append _ _ _ _ (h.axis2 ▸ hk)]
  have hrow : (r.push token value).inputs.row r.tokens.length =
      { token, tokenType := 0, positions := (value, value, value) } := by
    have at_end : ∀ {α : Type} (l : List α) (x d : α) (n : Nat), l.length = n →
        (l ++ [x]).getD n d = x := by
      rintro α l x d _ rfl
      simp
    simp only [Resident.inputs, Resident.push, ResidentPrefixIdentity.pushGenerated]
    rw [at_end _ _ _ _ rfl, at_end _ _ _ _ h.types, at_end _ _ _ _ h.axis0,
      at_end _ _ _ _ h.axis1, at_end _ _ _ _ h.axis2]
  have hdigest : (r.push token value).digests =
      (r.push token value).inputs.digests (r.tokens.length + 1) := by
    rw [PrefixInputs.digests_succ, hbelow.digests,
      PrefixInputs.digest_plain (fun item hi => (h.ordered.within item hi).le)
        (fun x hx => (h.ordered.bounded x hx).2), hrow, hbelow.digest le_rfl, Resident.push]
    simp only [h.digests, appendDigest_digests _ _ _ List.Pairwise.nil (by simp : ∀ x ∈ [], _)]
    rfl
  have hlen : (r.push token value).tokens.length = r.tokens.length + 1 := by simp [Resident.push]
  constructor
  case types => simp [Resident.push, ResidentPrefixIdentity.pushGenerated, h.types]
  case axis0 => simp [Resident.push, ResidentPrefixIdentity.pushGenerated, h.axis0]
  case axis1 => simp [Resident.push, ResidentPrefixIdentity.pushGenerated, h.axis1]
  case axis2 => simp [Resident.push, ResidentPrefixIdentity.pushGenerated, h.axis2]
  case ordered =>
    rw [hlen]
    exact h.ordered.mono (by omega) hfit
  case digests => rw [hlen, hdigest]

theorem generatedPosition_congr {a b c d : String} {index : Nat} {v w : Int32}
    (hv : generatedPosition a b index ropeDelta = .ok v)
    (hw : generatedPosition c d index ropeDelta = .ok w) : v = w := by
  rw [generatedPosition] at hv hw
  split at hv
  · cases hv
  · rename_i h1
    rw [if_neg h1] at hw
    split at hv
    · cases hv
    · rename_i h2
      rw [if_neg h2] at hw
      cases hv
      cases hw
      rfl

theorem Resident.Coherent.appendFrom {tokens : List Int32} (h : r.Coherent)
    (hfit : r.tokens.length + tokens.length ≤ maxSize)
    (hi : ResidentPrefixIdentity.appendFrom ropeDelta r.tokens.length tokens.length r.identity =
      .ok i)
    (hd : PrefixShortlistDigests.appendFrom ropeDelta r.tokens.length tokens r.digests = .ok d) :
    Resident.Coherent ⟨r.tokens ++ tokens, i, d⟩ := by
  induction tokens generalizing r with
  | nil =>
    cases hi
    cases hd
    rwa [List.append_nil]
  | cons token rest ih =>
    rw [List.length_cons] at hfit hi
    obtain ⟨v, hv, hi⟩ := bind_eq_ok hi
    obtain ⟨w, hw, hd⟩ := bind_eq_ok hd
    obtain rfl := generatedPosition_congr hv hw
    have hlen : (r.push token v).tokens.length = r.tokens.length + 1 := by simp [Resident.push]
    rw [← hlen] at hi hd
    have := ih (h.push token v (by omega)) (by omega) hi hd
    simpa [Resident.push] using this

theorem Resident.Coherent.size_digests (h : r.Coherent) :
    PrefixShortlistDigests.size r.digests = r.tokens.length := by
  simp [PrefixShortlistDigests.size, h.digests]

theorem Resident.Coherent.digests_ne_nil (h : r.Coherent) : r.digests ≠ [] := by
  rw [h.digests]
  exact PrefixInputs.digests_ne_nil _ _

theorem Resident.Coherent.appendGenerated (h : r.Coherent) {tokens : List Int32}
    (hi : r.identity.appendGenerated tokens.length ropeDelta = .ok i)
    (hd : PrefixShortlistDigests.appendGenerated r.digests tokens ropeDelta = .ok d) :
    Resident.Coherent ⟨r.tokens ++ tokens, i, d⟩ := by
  rw [ResidentPrefixIdentity.appendGenerated] at hi
  split at hi
  · cases hi
  · rename_i hroom
    have hsize : r.identity.size = r.tokens.length := h.types
    have hmax := h.ordered.fits
    rw [PrefixShortlistDigests.appendGenerated, if_neg h.digests_ne_nil, h.size_digests,
      if_neg (by omega)] at hd
    rw [hsize] at hi
    exact h.appendFrom (by omega) hi hd

/-! ## Truncation -/

theorem Resident.Coherent.truncate (h : r.Coherent) {tokens : Nat}
    (hi : r.identity.truncate tokens = .ok i)
    (hd : PrefixShortlistDigests.truncate r.digests tokens = .ok d) :
    Resident.Coherent ⟨r.tokens.take tokens, i, d⟩ := by
  have hsize : r.identity.size = r.tokens.length := h.types
  rw [ResidentPrefixIdentity.truncate] at hi
  split at hi
  · cases hi
  · rename_i hle
    rw [hsize] at hle
    rw [h.ordered.prefixItemCount] at hi
    split at hi
    · cases hi
    · rename_i retained hretained
      cases hi
      rw [PrefixShortlistDigests.truncate, if_neg (by
        rw [h.size_digests]
        exact not_or.mpr ⟨h.digests_ne_nil, hle⟩)] at hd
      cases hd
      -- the items that are kept are those that end within the new length
      obtain rfl : (r.identity.visionItems.filter fun item => item.stop ≤ tokens).length =
          retained := by
        split at hretained
        · cases hretained
        · exact Option.some.inj hretained
      have hlen : (r.tokens.take tokens).length = tokens := by
        rw [List.length_take]
        omega
      rw [take_filter_length VisionItem.stop h.ordered.sorted, h.ordered.upTo_rewrites]
      constructor
      case types => simp [h.types]
      case axis0 => simp [h.axis0]
      case axis1 => simp [h.axis1]
      case axis2 => simp [h.axis2]
      case ordered =>
        rw [hlen]
        exact h.ordered.cut (by omega)
      case digests =>
        simp only [hlen]
        rw [h.digests, PrefixInputs.take_digests _ _ (by omega)]
        refine PrefixInputs.AgreeTo.digests ⟨fun k hk => ?_, ?_, ?_⟩
        · simp only [Resident.inputs, getD_take _ hk]
        · simp [Resident.inputs, List.filter_filter]
        · simp [Resident.inputs, List.filter_filter]

/-- After every history the three records describe the same inputs. -/
theorem History.coherent (h : History r) : r.Coherent := by
  induction h with
  | assign hi hd => exact Resident.coherent_assign hi hd
  | appendGenerated _ tokens ropeDelta hi hd ih => exact ih.appendGenerated hi hd
  | truncate _ tokens hi hd ih => exact ih.truncate hi hd

/-! ## Matching -/

theorem PrefixInputs.at_digests (p : PrefixInputs) {n k : Nat} (hk : k ≤ n) :
    PrefixShortlistDigests.at (p.digests n) k = .ok (p.digest k) := by
  have hsize : PrefixShortlistDigests.size (p.digests n) = n := by
    simp [PrefixShortlistDigests.size]
  rw [PrefixShortlistDigests.at, hsize, if_neg (not_or.mpr ⟨p.digests_ne_nil n, by omega⟩)]
  simp [PrefixInputs.digests, List.getD_eq_getElem?_getD,
    List.getElem?_range (show k < n + 1 by omega)]

theorem Double.eq_iff {a b : Double} (ha : a.isNaN = false ∧ a ≠ negativeZero)
    (hb : b.isNaN = false ∧ b ≠ negativeZero) : a.eq b = true ↔ a = b := by
  simp only [Double.eq, isZero, ha.1, hb.1, ha.2, hb.2, Bool.false_eq_true, not_false_eq_true,
    true_and, or_false, decide_eq_true_eq]
  constructor
  · rintro (h | ⟨rfl, rfl⟩)
    · exact h
    · rfl
  · exact .inl

theorem all_zip_iff {α : Type} {same : α → α → Bool} {l m : List α} (hlen : l.length = m.length)
    (h : ∀ a ∈ l, ∀ b ∈ m, same a b = true ↔ a = b) :
    ((l.zip m).all fun (a, b) => same a b) = true ↔ l = m := by
  induction l generalizing m with
  | nil => simp [List.length_eq_zero_iff.mp hlen.symm]
  | cons a l ih =>
    obtain ⟨b, m, rfl⟩ := List.exists_cons_of_length_eq_add_one hlen.symm
    have htail := ih (m := m) (by simpa using hlen) fun x hx y hy =>
      h x (List.mem_cons_of_mem _ hx) y (List.mem_cons_of_mem _ hy)
    rw [List.zip_cons_cons, List.all_cons, Bool.and_eq_true, htail,
      h a (List.mem_cons_self ..) b (List.mem_cons_self ..), List.cons.injEq]

theorem sameItem_iff {a b : VisionItem} (ha : a.Plain) (hb : b.Plain) :
    sameItem a b = true ↔ a = b := by
  have htimes : (a.timestamps.length = b.timestamps.length ∧
      ((a.timestamps.zip b.timestamps).all fun times => times.1.eq times.2) = true) ↔
      a.timestamps = b.timestamps := by
    constructor
    · rintro ⟨hlen, hall⟩
      exact (all_zip_iff hlen fun x hx y hy => Double.eq_iff (ha x hx) (hb y hy)).mp hall
    · intro heq
      exact ⟨by rw [heq], (all_zip_iff (by rw [heq]) fun x hx y hy =>
        Double.eq_iff (ha x hx) (hb y hy)).mpr heq⟩
  cases a
  cases b
  simp only [sameItem, sameSpans, decide_eq_true_eq, VisionItem.mk.injEq, htimes] at *

/-- The prompt and the resident have the same inputs up to `count`, and `count` divides no
Vision item of either. -/
structure Agrees (q : PreparedPromptData) (r : Resident) (count : Nat) : Prop where
  incoming : count ≤ q.tokenIds.length
  resident : count ≤ r.tokens.length
  tokens : q.tokenIds.take count = r.tokens.take count
  types : q.tokenTypes.take count = r.identity.tokenTypes.take count
  axis0 : (q.axis 0).take count = r.identity.positions.1.take count
  axis1 : (q.axis 1).take count = r.identity.positions.2.1.take count
  axis2 : (q.axis 2).take count = r.identity.positions.2.2.take count
  incomingWhole : ∀ item ∈ q.visionItems, ¬ item.Straddles count
  residentWhole : ∀ item ∈ r.identity.visionItems, ¬ item.Straddles count
  items : (q.visionItems.filter fun item => item.stop ≤ count) =
    r.identity.visionItems.filter fun item => item.stop ≤ count
  rewrites : (q.rewriteExecutionFrontiers.filter fun f => f ≤ count) =
    r.identity.rewriteExecutionFrontiers.filter fun f => f ≤ count

theorem Agrees.agreeTo {q : PreparedPromptData} {count : Nat} (h : Agrees q r count) :
    PrefixInputs.AgreeTo q.inputs r.inputs count where
  row := by
    intro k hk
    have hlt : k < q.tokenIds.length := hk.trans_le h.incoming
    have h0 := q.getD_axis (i := 0) hlt
    have h1 := q.getD_axis (i := 1) hlt
    have h2 := q.getD_axis (i := 2) hlt
    rw [Nat.zero_mul, Nat.zero_add] at h0
    rw [Nat.one_mul] at h1
    simp only [PreparedPromptData.inputs, PreparedPromptData.row, Resident.inputs, ← h0, ← h1,
      ← h2, getD_of_take_eq h.tokens hk, getD_of_take_eq h.types hk, getD_of_take_eq h.axis0 hk,
      getD_of_take_eq h.axis1 hk, getD_of_take_eq h.axis2 hk]
  items := h.items
  rewrites := h.rewrites

/-- The part of `matches` about the items. -/
theorem items_match_iff (count : Nat) {n m : Nat} {l k : List VisionItem} {f g : List Nat}
    (hl : Ordered n l f) (hk : Ordered m k g) (pl : ∀ item ∈ l, item.Plain)
    (pk : ∀ item ∈ k, item.Plain) :
    (∃ a b, prefixItemCount l count = some a ∧ prefixItemCount k count = some b ∧ a = b ∧
      ((l.take a).zip (k.take a)).all (fun (x, y) => sameItem x y) = true) ↔
    (∀ item ∈ l, ¬ item.Straddles count) ∧ (∀ item ∈ k, ¬ item.Straddles count) ∧
      (l.filter fun item => item.stop ≤ count) = k.filter fun item => item.stop ≤ count := by
  have same : ∀ x ∈ l.filter (fun item => item.stop ≤ count),
      ∀ y ∈ k.filter (fun item => item.stop ≤ count), sameItem x y = true ↔ x = y :=
    fun x hx y hy => sameItem_iff (pl x (List.mem_of_mem_filter hx))
      (pk y (List.mem_of_mem_filter hy))
  have hcut := take_filter_length VisionItem.stop hl.sorted count
  have hcut' := take_filter_length VisionItem.stop hk.sorted count
  rw [hl.prefixItemCount, hk.prefixItemCount]
  constructor
  · rintro ⟨a, b, ha, hb, rfl, hall⟩
    split at ha
    · cases ha
    · rename_i hwhole
      split at hb
      · cases hb
      · rename_i hwhole'
        have hlen := Option.some.inj hb
        cases ha
        rw [← hlen, hcut', hlen, hcut] at hall
        push Not at hwhole hwhole'
        exact ⟨hwhole, hwhole', (all_zip_iff hlen.symm same).mp hall⟩
  · rintro ⟨hwhole, hwhole', heq⟩
    refine ⟨_, _, if_neg ?_, if_neg ?_, by rw [heq], ?_⟩
    · push Not
      exact hwhole
    · push Not
      exact hwhole'
    · rw [hcut, heq, hcut', ← heq]
      exact (all_zip_iff rfl fun x hx y hy => same x hx y (heq ▸ hy)).mpr rfl

/-- The checks of `matches`, one beside the other. -/
theorem matches_iff (i : ResidentPrefixIdentity) (q : PreparedPromptData) (count : Nat) :
    i.matches q count = true ↔ (count ≤ q.tokenIds.length ∧ count ≤ i.size ∧ q.WellShaped) ∧
      q.tokenTypes.take count = i.tokenTypes.take count ∧
      ((q.axis 0).take count = i.positions.1.take count ∧
        (q.axis 1).take count = i.positions.2.1.take count ∧
        (q.axis 2).take count = i.positions.2.2.take count) ∧
      (∃ a b, prefixItemCount q.visionItems count = some a ∧
        prefixItemCount i.visionItems count = some b ∧ a = b ∧
        ((q.visionItems.take a).zip (i.visionItems.take a)).all
          (fun (x, y) => sameItem x y) = true) ∧
      upTo q.rewriteExecutionFrontiers count = upTo i.rewriteExecutionFrontiers count := by
  rw [ResidentPrefixIdentity.matches]
  by_cases hsize : count > q.tokenIds.length ∨ count > i.size ∨ ¬ q.WellShaped
  · rw [if_pos hsize]
    refine iff_of_false (by simp) fun h => ?_
    rcases hsize with hlt | hlt | hshape
    · exact absurd h.1.1 (by omega)
    · exact absurd h.1.2.1 (by omega)
    · exact hshape h.1.2.2
  · have hshape : count ≤ q.tokenIds.length ∧ count ≤ i.size ∧ q.WellShaped := by
      simpa [not_or] using hsize
    rw [if_neg hsize, ite_not]
    by_cases htypes : q.tokenTypes.take count = i.tokenTypes.take count
    · rw [if_pos htypes]
      by_cases haxes : (q.axis 0).take count = i.positions.1.take count ∧
          (q.axis 1).take count = i.positions.2.1.take count ∧
          (q.axis 2).take count = i.positions.2.2.take count
      · rw [if_neg (by simp [haxes])]
        cases hq : prefixItemCount q.visionItems count with
        | none => simp
        | some a =>
          cases hi : prefixItemCount i.visionItems count with
          | none => simp
          | some b =>
            simp only [decide_eq_true_eq]
            constructor
            · rintro ⟨hab, hall, hrewrites⟩
              exact ⟨hshape, htypes, haxes, ⟨a, b, rfl, rfl, hab, hall⟩, hrewrites⟩
            · rintro ⟨-, -, -, ⟨_, _, ⟨⟩, ⟨⟩, hab, hall⟩, hrewrites⟩
              exact ⟨hab, hall, hrewrites⟩
      · rw [if_pos ((not_and_or.mp haxes).imp_right not_and_or.mp)]
        simp [haxes]
    · rw [if_neg htypes]
      simp [htypes]

theorem prefixMatches_iff {q : PreparedPromptData} (count : Nat) (hr : r.Coherent)
    (hshape : q.WellShaped)
    (hq : Ordered q.tokenIds.length q.visionItems q.rewriteExecutionFrontiers)
    (pq : ∀ item ∈ q.visionItems, item.Plain) (pr : ∀ item ∈ r.identity.visionItems, item.Plain) :
    prefixMatches q r.tokens r.identity count = true ↔ Agrees q r count := by
  have hitems := items_match_iff count hq hr.ordered pq pr
  have hsize : r.identity.size = r.tokens.length := hr.types
  rw [prefixMatches]
  split
  · rename_i hlong
    refine iff_of_false (by simp) fun h => ?_
    have := h.incoming
    have := h.resident
    omega
  · rename_i hlong
    rw [decide_eq_true_eq, matches_iff, hitems, hq.upTo_rewrites, hr.ordered.upTo_rewrites]
    constructor
    · rintro ⟨htokens, -, htypes, ⟨h0, h1, h2⟩, ⟨hwhole, hwhole', hitems⟩, hrewrites⟩
      exact ⟨by omega, by omega, htokens, htypes, h0, h1, h2, hwhole, hwhole', hitems, hrewrites⟩
    · intro h
      exact ⟨h.tokens, ⟨h.incoming, hsize ▸ h.resident, hshape⟩, h.types,
        ⟨h.axis0, h.axis1, h.axis2⟩, ⟨h.incomingWhole, h.residentWhole, h.items⟩, h.rewrites⟩

/-- Shortlist digests never hide a reusable prefix: after every history, a prompt that matches
up to a frontier has the digest of the resident there; and the match is exactly agreement of
the inputs up to that frontier. -/
theorem shortlist_complete {r : Resident} (hr : History r) {q : PreparedPromptData}
    {d : List DigestPair} (hq : PrefixShortlistDigests.assign q = .ok d)
    (pq : ∀ item ∈ q.visionItems, item.Plain) (pr : ∀ item ∈ r.identity.visionItems, item.Plain)
    (count : Nat) :
    (prefixMatches q r.tokens r.identity count = true →
      ∃ x, PrefixShortlistDigests.at d count = .ok x ∧
        PrefixShortlistDigests.at r.digests count = .ok x) ∧
    (prefixMatches q r.tokens r.identity count = true ↔ Agrees q r count) := by
  obtain ⟨hshape, hord, rfl⟩ := assign_digests hq
  have hiff := prefixMatches_iff count hr.coherent hshape hord pq pr
  refine ⟨fun hm => ?_, hiff⟩
  have hagree := hiff.mp hm
  refine ⟨q.inputs.digest count, PrefixInputs.at_digests _ hagree.incoming, ?_⟩
  rw [hr.coherent.digests, hagree.agreeTo.digest le_rfl]
  exact PrefixInputs.at_digests _ hagree.resident

/-- Two tokens of text around an image of one token, with a marker after the image. -/
def imagePrompt : PreparedPromptData :=
  { tokenIds := [11, 12, 13]
    tokenTypes := [0, 1, 0]
    positions := [0, 1, 2, 0, 1, 2, 0, 1, 2]
    visionItems :=
      [{ modality := .image, grid := ⟨1, 2, 2⟩, patchBegin := 0, patchCount := 4,
         contentDigest := [7], timestamps := [⟨0⟩], tokenSpans := [⟨1, 1⟩] }]
    rewriteExecutionFrontiers := [2] }

theorem imagePrompt_plain : ∀ item ∈ imagePrompt.visionItems, item.Plain := by
  simp only [VisionItem.Plain]
  decide

/-- The prompt after its last token was dropped and two were generated. -/
def imageResident : Resident :=
  { tokens := [11, 12, 20, 21]
    identity :=
      { tokenTypes := [0, 1, 0, 0]
        positions := ([0, 1, 2, 3], [0, 1, 2, 3], [0, 1, 2, 3])
        visionItems := imagePrompt.visionItems
        rewriteExecutionFrontiers := [2] }
    digests := (appendDigest (appendDigest (imagePrompt.inputs.digests 2)
      ⟨20, 0, (2, 2, 2)⟩ []).1 ⟨21, 0, (3, 3, 3)⟩ []).1 }

theorem imagePrompt_assign :
    PrefixShortlistDigests.assign imagePrompt = .ok (imagePrompt.inputs.digests 3) := by
  decide +kernel

theorem imageResident_history : History imageResident := by
  have h0 := History.assign (p := imagePrompt) (by rfl) imagePrompt_assign
  have h1 := h0.truncate 2 (by rfl) (by rfl)
  exact h1.appendGenerated [20, 21] 0 (by rfl) (by rfl)

/-- The first two tokens of the prompt are found in the resident again. -/
theorem imagePrompt_found :
    prefixMatches imagePrompt imageResident.tokens imageResident.identity 2 = true ∧
    ∃ x, PrefixShortlistDigests.at (imagePrompt.inputs.digests 3) 2 = .ok x ∧
      PrefixShortlistDigests.at imageResident.digests 2 = .ok x := by
  have hmatch : prefixMatches imagePrompt imageResident.tokens imageResident.identity 2 = true := by
    rfl
  exact ⟨hmatch, (shortlist_complete imageResident_history imagePrompt_assign imagePrompt_plain
    imagePrompt_plain 2).1 hmatch⟩

end Ninfer.Qwen
