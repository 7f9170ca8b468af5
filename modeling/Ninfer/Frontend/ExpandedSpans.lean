/-
  The literal spans still cover the caller's bytes after the placeholders were expanded.

  `Placed` is the invariant of the loop over the items: every byte of the caller in the new text
  comes from a place of the source outside the placeholders, and `place` says where it went. The
  offsets are moved by the same function, and it keeps their order.
-/
import Ninfer.Frontend.LiteralSpans
import Ninfer.Frontend.Placeholders
import Ninfer.Lib.Prefixes

namespace Ninfer.Frontend

open Lib

/-! ## Where an offset goes -/

/-- `map_expanded_boundary` without its checks. -/
def place (expansions : List PlaceholderExpansion) (p : Nat) : Nat :=
  match (expansions.takeWhile fun e => e.sourceEnd ≤ p).getLast? with
  | none => p
  | some done => done.renderedEnd + p - done.sourceEnd

/-- The offset is not strictly inside a placeholder. -/
def NotInside (expansions : List PlaceholderExpansion) (p : Nat) : Prop :=
  ∀ e ∈ expansions, p ≤ e.sourceBegin ∨ e.sourceEnd ≤ p

/-- The byte at the offset belongs to no placeholder. -/
def Outside (expansions : List PlaceholderExpansion) (p : Nat) : Prop :=
  ∀ e ∈ expansions, p < e.sourceBegin ∨ e.sourceEnd ≤ p

variable {expansions : List PlaceholderExpansion}

theorem Outside.notInside_succ {p : Nat} (h : Outside expansions p) :
    NotInside expansions (p + 1) := by
  intro e he
  have := h e he
  omega

/-- The byte after a byte outside the placeholders goes right after it. -/
theorem Outside.place_succ {p : Nat} (h : Outside expansions p)
    (hne : ∀ e ∈ expansions, e.sourceBegin < e.sourceEnd) :
    place expansions (p + 1) = place expansions p + 1 := by
  have hsame : expansions.takeWhile (fun e => e.sourceEnd ≤ p + 1) =
      expansions.takeWhile fun e => e.sourceEnd ≤ p := by
    induction expansions with
    | nil => rfl
    | cons e rest ih =>
      have hout := h e (List.mem_cons_self ..)
      have hlt := hne e (List.mem_cons_self ..)
      have hrest := ih (fun x hx => h x (List.mem_cons_of_mem _ hx))
        fun x hx => hne x (List.mem_cons_of_mem _ hx)
      simp only [List.takeWhile_cons, hrest]
      have hiff : decide (e.sourceEnd ≤ p + 1) = decide (e.sourceEnd ≤ p) := by
        apply decide_eq_decide.mpr
        omega
      rw [hiff]
  unfold place
  rw [hsame]
  cases hlast : (expansions.takeWhile fun e => e.sourceEnd ≤ p).getLast? with
  | none => rfl
  | some done =>
    have hdone : done.sourceEnd ≤ p := by
      simpa using List.mem_takeWhile_imp (List.mem_of_getLast? hlast)
    show done.renderedEnd + (p + 1) - done.sourceEnd = done.renderedEnd + p - done.sourceEnd + 1
    omega

/-- One more expansion, behind all the others. -/
theorem place_snoc (expansions : List PlaceholderExpansion) (last : PlaceholderExpansion)
    (hlast : ∀ e ∈ expansions, e.sourceEnd ≤ last.sourceEnd) (p : Nat) :
    place (expansions ++ [last]) p =
      if last.sourceEnd ≤ p then last.renderedEnd + p - last.sourceEnd else place expansions p := by
  unfold place
  by_cases hp : last.sourceEnd ≤ p
  · have hall : (expansions ++ [last]).takeWhile (fun e => e.sourceEnd ≤ p) =
        expansions ++ [last] := by
      rw [List.takeWhile_eq_self_iff]
      exact forall_mem_push (fun e he => decide_eq_true ((hlast e he).trans hp)) (decide_eq_true hp)
    rw [if_pos hp, hall, List.getLast?_append]
    rfl
  · have hsame : (expansions ++ [last]).takeWhile (fun e => e.sourceEnd ≤ p) =
        expansions.takeWhile fun e => e.sourceEnd ≤ p := by
      rw [List.takeWhile_append]
      split
      · rename_i hfull
        rw [List.takeWhile_cons_of_neg (by simpa using hp), List.append_nil]
        exact ((List.takeWhile_prefix _).eq_of_length hfull).symm
      · rfl
    rw [if_neg hp, hsame]

/-- A boundary that was mapped is not inside a placeholder and went to its place. -/
theorem mapExpandedBoundary_ensures {boundary sourceSize : Nat} {kind : String}
    (hsorted : expansions.Pairwise fun a b => a.sourceEnd ≤ b.sourceBegin)
    (hne : ∀ e ∈ expansions, e.sourceBegin < e.sourceEnd) :
    Ensures (mapExpandedBoundary boundary sourceSize expansions kind) fun mapped =>
      NotInside expansions boundary ∧ mapped = place expansions boundary := by
  refine .ite (fun _ => .error _) fun _ => ?_
  refine .ite (fun _ => .error _) fun hnext => ?_
  have hinside : NotInside expansions boundary := by
    intro e he
    rw [← List.takeWhile_append_dropWhile (p := fun e => decide (e.sourceEnd ≤ boundary))
      (l := expansions)] at he hsorted
    rw [drop_length_takeWhile] at hnext
    rcases List.mem_append.mp he with he | he
    · exact .inr (by simpa using List.mem_takeWhile_imp he)
    · refine .inl ?_
      cases hrest : expansions.dropWhile fun e => decide (e.sourceEnd ≤ boundary) with
      | nil =>
        rw [hrest] at he
        cases he
      | cons next rest =>
        rw [hrest] at he hnext hsorted
        have hfirst : boundary ≤ next.sourceBegin := by simpa using hnext
        rcases List.mem_cons.mp he with rfl | he
        · exact hfirst
        · have h1 := (List.pairwise_cons.mp (List.pairwise_append.mp hsorted).2.1).1 e he
          have h2 := hne next (by
            have : next ∈ expansions.dropWhile fun e => decide (e.sourceEnd ≤ boundary) := by
              rw [hrest]
              exact List.mem_cons_self ..
            exact (List.dropWhile_suffix _).subset this)
          omega
  unfold place
  cases (expansions.takeWhile fun e => e.sourceEnd ≤ boundary).getLast? with
  | none => exact .ok ⟨hinside, rfl⟩
  | some done => exact .ok ⟨hinside, rfl⟩

/-! ## The loop over the items -/

/-- What the loop keeps. -/
structure Placed (source : Text) (s : ExpansionState) : Prop where
  cursor : s.sourceCursor ≤ source.length
  nonempty : ∀ e ∈ s.expansions, e.sourceBegin < e.sourceEnd
  before : ∀ e ∈ s.expansions, e.sourceEnd ≤ s.sourceCursor
  sorted : s.expansions.Pairwise fun a b => a.sourceEnd ≤ b.sourceBegin
  ahead : ∀ p, s.sourceCursor ≤ p →
    place s.expansions p = s.expanding.out.length + (p - s.sourceCursor)
  mono : ∀ a b, a ≤ b → NotInside s.expansions a → place s.expansions a ≤ place s.expansions b
  origin : ∀ i g, s.expanding.out[i]? = some g → g.origin = .user →
    ∃ p, p < s.sourceCursor ∧ source[p]? = some g ∧ Outside s.expansions p ∧
      place s.expansions p = i

theorem placed_start (source : Text) :
    Placed source { expanding := ⟨[], []⟩, expansions := [], sourceCursor := 0 } where
  cursor := Nat.zero_le _
  nonempty := by simp
  before := by simp
  sorted := List.Pairwise.nil
  ahead := fun p _ => by simp [place]
  mono := fun a b hab _ => by simpa [place] using hab
  origin := fun i g hg => by simp at hg

/-- The text between the placeholders is copied, and keeps its place. -/
theorem Placed.copied {source : Text} {s : ExpansionState} (h : Placed source s) {stop : Nat}
    (hstop : stop ≤ source.length) (hcur : s.sourceCursor ≤ stop) {i : Nat} {g : Glyph}
    (hg : (s.expanding.out ++ (source.drop s.sourceCursor).take (stop - s.sourceCursor))[i]? =
      some g) (ho : g.origin = .user) :
    ∃ p, p < stop ∧ source[p]? = some g ∧ Outside s.expansions p ∧ place s.expansions p = i := by
  by_cases hi : i < s.expanding.out.length
  · rw [List.getElem?_append_left hi] at hg
    obtain ⟨p, hp, hsrc, hout, hplace⟩ := h.origin i g hg ho
    exact ⟨p, by omega, hsrc, hout, hplace⟩
  · rw [List.getElem?_append_right (by omega)] at hg
    have hlt := (List.getElem?_eq_some_iff.mp hg).1
    rw [List.length_take, List.length_drop] at hlt
    rw [List.getElem?_take_of_lt (by omega), List.getElem?_drop] at hg
    refine ⟨_, by omega, hg, fun e he => .inr ?_, ?_⟩
    · have := h.before e he
      omega
    · rw [h.ahead _ (by omega)]
      omega

theorem appendRepeated_ensures (out : Text) (value : Bytes) (count : Nat) :
    Ensures (appendRepeated out value count) fun out' => ∃ more, out' = out ++ more ∧
      NoUser more := by
  exact .ite (fun _ => .error _) fun _ => .ok ⟨_, rfl, noUser_media _⟩

theorem noUser_append {a b : Text} (ha : NoUser a) (hb : NoUser b) : NoUser (a ++ b) := by
  exact List.forall_mem_append.mpr ⟨ha, hb⟩

/-- The text grew by bytes that are not the caller's. -/
def Grows (out : Text) (e : Expanding) : Prop := ∃ more, e.out = out ++ more ∧ NoUser more

theorem appendMediaTokenRun_grows {out : Text} {e : Expanding} (h : Grows out e) (pad : Bytes)
    (count : Nat) (modality : Modality) (itemIndex frameIndex : Nat) :
    Ensures (appendMediaTokenRun e pad count modality itemIndex frameIndex) (Grows out) := by
  obtain ⟨more, heq, hno⟩ := h
  refine .bind (appendRepeated_ensures _ _ _) fun out' hout => .pure ?_
  obtain ⟨run, rfl, hrun⟩ := hout
  exact ⟨more ++ run, by rw [heq, List.append_assoc], noUser_append hno hrun⟩

theorem Grows.media {out : Text} {e : Expanding} (h : Grows out e) (b : Bytes) :
    Grows out { e with out := e.out ++ media b } := by
  obtain ⟨more, heq, hno⟩ := h
  exact ⟨more ++ Frontend.media b, by simp [heq],
    noUser_append hno (noUser_media b)⟩

variable (seconds : Qwen.Double → Bytes)

theorem appendPlaceholder_grows (e : Expanding) (item : VisionItem) (itemIndex : Nat) :
    Ensures (appendPlaceholder seconds e item itemIndex) (Grows e.out) := by
  have hstart : Grows e.out e := ⟨[], by simp, noUser_nil⟩
  unfold appendPlaceholder
  cases item.modality with
  | image => exact appendMediaTokenRun_grows hstart _ _ _ _ _
  | video =>
    refine .ite (fun _ => .error _) fun _ => .foldlM (fun s frame _ hs => ?_) hstart
    refine .bind (appendMediaTokenRun_grows ((hs.media _).media _) _ _ _ _ _) fun s hs => ?_
    exact .pure (hs.media _)

theorem placed_expandStep {source : Text} {s : ExpansionState} (h : Placed source s)
    (entry : (VisionItem × MediaPlaceholderByteSpec) × Nat) :
    Ensures (expandStep seconds source s entry) (Placed source) := by
  intro s' hs'
  obtain ⟨_, -, hs'⟩ := bind_eq_ok hs'
  obtain ⟨_, hcheck, hs'⟩ := bind_eq_ok hs'
  obtain ⟨expanding, hexp, hs'⟩ := bind_eq_ok hs'
  obtain ⟨more, hout, hno⟩ := appendPlaceholder_grows seconds _ _ _ _ hexp
  cases hs'
  have hpad : 0 < entry.1.1.modality.pad.length := by
    cases entry.1.1.modality <;> decide
  have hguard := refuse_ok hcheck
  obtain ⟨hbegin, hend, hlen, -⟩ : s.sourceCursor ≤ entry.1.2.bytes.begin ∧
      entry.1.2.bytes.stop ≤ source.length ∧
      entry.1.2.bytes.stop - entry.1.2.bytes.begin = entry.1.1.modality.pad.length ∧
      occursAt source entry.1.1.modality.pad entry.1.2.bytes.begin = true := by
    simpa [not_or] using hguard
  generalize entry.1.2.bytes = bytes at hbegin hend hlen hout ⊢
  have hlt : bytes.begin < bytes.stop := by omega
  have hplace := place_snoc s.expansions ⟨bytes.begin, bytes.stop, expanding.out.length⟩
    fun e he => by
      have := h.before e he
      show e.sourceEnd ≤ bytes.stop
      omega
  simp only at hplace
  have hsize : expanding.out.length = s.expanding.out.length + (bytes.begin - s.sourceCursor) +
      more.length := by
    rw [hout]
    simp only [List.length_append, List.length_take, List.length_drop]
    omega
  constructor
  case cursor => exact hend
  case nonempty =>
    exact forall_mem_push h.nonempty hlt
  case before =>
    refine forall_mem_push (fun e he => ?_) (Nat.le_refl _)
    have := h.before e he
    show e.sourceEnd ≤ bytes.stop
    omega
  case sorted =>
    rw [List.pairwise_append]
    refine ⟨h.sorted, List.pairwise_singleton _ _, fun a ha b hb => ?_⟩
    obtain rfl := List.mem_singleton.mp hb
    have := h.before a ha
    show a.sourceEnd ≤ bytes.begin
    omega
  case ahead =>
    intro p hp
    simp only at hp
    rw [hplace, if_pos hp]
    show expanding.out.length + p - bytes.stop = expanding.out.length + (p - bytes.stop)
    omega
  case mono =>
    intro a b hab hin
    have hina : NotInside s.expansions a := fun e he => hin e (List.mem_append_left _ he)
    have hself := hin ⟨bytes.begin, bytes.stop, expanding.out.length⟩
      (List.mem_append_right _ (List.mem_singleton_self _))
    simp only at hself
    simp only [hplace]
    by_cases hb : bytes.stop ≤ b
    · rw [if_pos hb]
      by_cases ha : bytes.stop ≤ a
      · rw [if_pos ha]
        omega
      · -- up to the placeholder the text before it was copied
        rw [if_neg ha]
        have h1 := h.mono a bytes.begin (by omega) hina
        rw [h.ahead _ hbegin] at h1
        omega
    · rw [if_neg hb, if_neg (by omega)]
      exact h.mono a b hab hina
  case origin =>
    intro i g hg ho
    rw [hout] at hg
    have hi : i < (s.expanding.out ++
        (source.drop s.sourceCursor).take (bytes.begin - s.sourceCursor)).length := by
      by_contra hge
      rw [List.getElem?_append_right (Nat.le_of_not_lt hge)] at hg
      exact hno.not_user hg ho
    rw [List.getElem?_append_left hi] at hg
    obtain ⟨p, hp, hsrc, houtside, hpl⟩ := h.copied (by omega) hbegin hg ho
    refine ⟨p, ?_, hsrc, forall_mem_push houtside (.inl hp), ?_⟩
    · show p < bytes.stop
      omega
    · rw [hplace, if_neg (by omega), hpl]

/-- After the expansion the literal spans cover every byte of the caller. -/
theorem covered_expandPlaceholders {rendered : RenderedChat} {items : List VisionItem}
    (h : Literal rendered.text rendered.literalSpans) :
    Ensures (expandPlaceholders seconds rendered items) fun r =>
      ∀ i g, r.text[i]? = some g → g.origin = .user → Covers r.literalSpans i := by
  intro r hr
  obtain ⟨_, -, hr⟩ := bind_eq_ok hr
  obtain ⟨_, -, hr⟩ := bind_eq_ok hr
  obtain ⟨s, hs, hr⟩ := bind_eq_ok hr
  have placed : Placed rendered.text s :=
    Ensures.foldlM (fun s entry _ hs => placed_expandStep seconds hs entry)
      (placed_start rendered.text) s hs
  -- only the spans matter of what is mapped
  obtain ⟨checkpoint, -, hr⟩ := bind_eq_ok hr
  obtain ⟨rewrites, -, hr⟩ := bind_eq_ok hr
  obtain ⟨messages, -, hr⟩ := bind_eq_ok hr
  obtain ⟨caches, -, hr⟩ := bind_eq_ok hr
  obtain ⟨spans, hspans, hr⟩ := bind_eq_ok hr
  cases hr
  intro i g hg ho
  obtain ⟨p, -, hsrc, hout, rfl⟩ := placed.copied (Nat.le_refl _) placed.cursor
    (by rwa [List.take_of_length_le (by simp)]) ho
  obtain ⟨span, hmem, hbegin, hstop⟩ := h.covered p g hsrc ho
  obtain ⟨mapped, hmapped, hf⟩ := mem_of_mapM_ok hspans hmem
  obtain ⟨begin, hb, hf⟩ := bind_eq_ok hf
  obtain ⟨stop, he, hf⟩ := bind_eq_ok hf
  cases hf
  obtain ⟨hin, rfl⟩ := mapExpandedBoundary_ensures placed.sorted placed.nonempty _ hb
  obtain ⟨-, rfl⟩ := mapExpandedBoundary_ensures placed.sorted placed.nonempty _ he
  refine ⟨_, hmapped, placed.mono _ _ hbegin hin, ?_⟩
  have hnext := placed.mono (p + 1) span.stop hstop hout.notInside_succ
  rw [hout.place_succ placed.nonempty] at hnext
  exact hnext

end Ninfer.Frontend
