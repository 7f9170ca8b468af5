/-
  The work of rebuilding a sequence up to a frontier (`rebuild_work.h`, and
  `segmented_prefill_chunks` and `scheduled_prefill_work` of `request_plan_impl.h`).

  A schedule cuts the prompt at its boundaries, the frontiers of the capture groups and the rewrite
  frontiers, and counts the chunks of every segment. A sequence that grows past its last boundary
  only replaces the chunks of its tail. Of a capture group only the frontier is read. Frontiers are
  `std::uint32_t`; the sums of chunks stay below the frontier (`segmentedPrefillChunks_le`).
-/
import Ninfer.Core.Handle
import Ninfer.Engine.PrefillWork
import Ninfer.Lib.Fallible

namespace Ninfer.Qwen

open Lib Engine
open Resources (PrefillWork)

/-- The boundaries of a schedule, each list in order as the planner sorts it. -/
structure RebuildBoundaries where
  captures : List Nat := []
  rewriteFrontiers : List Nat := []
  captures_sorted : captures.Pairwise (· ≤ ·) := by decide
  rewriteFrontiers_sorted : rewriteFrontiers.Pairwise (· ≤ ·) := by decide

namespace RebuildBoundaries

variable (boundaries : RebuildBoundaries)

def all : List Nat := boundaries.captures ++ boundaries.rewriteFrontiers

/-- The frontiers that the loop of `segmented_prefill_chunks` takes one after the other. An
    exhausted list counts there as the largest frontier, which no boundary is after. -/
def visited : List Nat → List Nat → List Nat
  | [], rewrites => rewrites
  | captures, [] => captures
  | capture :: captures, rewrite :: rewrites =>
    if capture < rewrite then capture :: visited captures (rewrite :: rewrites)
    else if rewrite < capture then rewrite :: visited (capture :: captures) rewrites
    else capture :: visited captures rewrites

end RebuildBoundaries

open RebuildBoundaries

/-- The body of the loop, on the chunks so far and the begin of the segment. -/
def closeSegment (finish prefillChunk : Nat) (state : Nat × Nat) (frontier : Nat) : Nat × Nat :=
  if frontier ≤ state.2 ∨ frontier ≥ finish then state
  else (state.1 + (1 + (frontier - state.2 - 1) / prefillChunk), frontier)

def segmentedPrefillChunks (start finish prefillChunk : Nat) (boundaries : RebuildBoundaries) :
    Nat :=
  if start ≥ finish ∨ prefillChunk = 0 then 0
  else
    let closed := (visited boundaries.captures boundaries.rewriteFrontiers).foldl
      (closeSegment finish prefillChunk) (0, start)
    closed.1 + 1 + (finish - closed.2 - 1) / prefillChunk

def scheduledPrefillWork (build : Build) (start finish visionItems visionPatches
    prefillChunk : Nat) (boundaries : RebuildBoundaries) : Except Fault PrefillWork := do
  refuse (finish < start) (.logicError "prefill work interval is reversed")
  return { makePrefillWork build start (finish - start) visionItems visionPatches prefillChunk with
    chunks := segmentedPrefillChunks start finish prefillChunk boundaries }

def includeRebuildBoundary (frontier tailBegin boundary : Nat) : Nat :=
  if boundary ≤ frontier then max tailBegin boundary else tailBegin

/-- Where the tail begins: the largest boundary up to the frontier. -/
def rebuildTailBegin (boundaries : RebuildBoundaries) (frontier : Nat) : Nat :=
  boundaries.all.foldl (includeRebuildBoundary frontier) 0

def chunksFor (prefillChunk tokens : Nat) : Nat :=
  if tokens = 0 then 0 else 1 + (tokens - 1) / prefillChunk

def advanceSegmentedRebuildWork (build : Build) (work : PrefillWork)
    (tailBegin previousFrontier frontier prefillChunk : Nat) : Except Fault PrefillWork := do
  refuse (frontier < previousFrontier ∨ work.tokens ≠ previousFrontier ∨
      tailBegin > previousFrontier ∨ prefillChunk = 0)
    (.logicError "sequence rebuild work is not aligned with its frontier")
  if frontier = previousFrontier then return work
  else
    let oldTailChunks := chunksFor prefillChunk (previousFrontier - tailBegin)
    let newTailChunks := chunksFor prefillChunk (frontier - tailBegin)
    refuse (work.chunks < oldTailChunks)
      (.logicError "sequence rebuild chunk accounting is invalid")
    let total := makePrefillWork build 0 frontier work.visionItems work.visionPatches prefillChunk
    return { work with
      chunks := (work.chunks - oldTailChunks + newTailChunks) % 2 ^ 64
      tokens := total.tokens
      attentionPairs := total.attentionPairs }

/-- The sequence advances from one frontier to the next. -/
def advanceThrough (build : Build) (tailBegin prefillChunk : Nat) :
    Nat → PrefillWork → List Nat → Except Fault PrefillWork
  | _, work, [] => .ok work
  | previous, work, frontier :: rest => do
    let work ← advanceSegmentedRebuildWork build work tailBegin previous frontier prefillChunk
    advanceThrough build tailBegin prefillChunk frontier work rest

/-! ## The visited frontiers -/

theorem mem_visited {captures rewrites : List Nat} {b : Nat} :
    b ∈ visited captures rewrites ↔ b ∈ captures ∨ b ∈ rewrites := by
  fun_induction visited captures rewrites with
  | case1 rewrites => simp
  | case2 captures => simp
  | case3 capture captures rewrite rewrites _ ih => simp only [List.mem_cons, ih]; tauto
  | case4 capture captures rewrite rewrites _ _ ih => simp only [List.mem_cons, ih]; tauto
  | case5 capture captures rewrite rewrites h h' ih =>
    obtain rfl : capture = rewrite := by omega
    simp only [List.mem_cons, ih]
    tauto

theorem visited_sorted {captures rewrites : List Nat} (hcaptures : captures.Pairwise (· ≤ ·))
    (hrewrites : rewrites.Pairwise (· ≤ ·)) :
    (visited captures rewrites).Pairwise (· ≤ ·) := by
  fun_induction visited captures rewrites with
  | case1 rewrites => exact hrewrites
  | case2 captures => exact hcaptures
  | case3 capture captures rewrite rewrites _ ih =>
    simp only [List.pairwise_cons, List.mem_cons, mem_visited] at *
    exact ⟨by grind, ih hcaptures.2 hrewrites⟩
  | case4 capture captures rewrite rewrites _ _ ih =>
    simp only [List.pairwise_cons, List.mem_cons, mem_visited] at *
    exact ⟨by grind, ih hcaptures hrewrites.2⟩
  | case5 capture captures rewrite rewrites _ _ ih =>
    simp only [List.pairwise_cons, mem_visited] at *
    exact ⟨by grind, ih hcaptures.2 hrewrites.2⟩

/-! ## Chunks of a schedule -/

section Segments

variable {finish chunk : Nat}

theorem chunksFor_le (chunk tokens : Nat) : chunksFor chunk tokens ≤ tokens := by
  have := Nat.div_le_self (tokens - 1) chunk
  unfold chunksFor
  split_ifs <;> omega

theorem closeSegment_of_mem {frontier c s : Nat} (h : s < frontier) (h' : frontier < finish) :
    closeSegment finish chunk (c, s) frontier = (c + chunksFor chunk (frontier - s), frontier) := by
  rw [closeSegment, if_neg (by omega), chunksFor, if_neg (by omega)]

/-- The segments closed so far, with the segment that is still open. -/
def totalChunks (finish chunk : Nat) (frontiers : List Nat) (state : Nat × Nat) : Nat :=
  let closed := frontiers.foldl (closeSegment finish chunk) state
  closed.1 + chunksFor chunk (finish - closed.2)

/-- Closing segments stays before the end, and never counts more chunks than tokens. -/
theorem foldl_closeSegment_le (frontiers : List Nat) (state : Nat × Nat) :
    (state.2 < finish → (frontiers.foldl (closeSegment finish chunk) state).2 < finish) ∧
    (frontiers.foldl (closeSegment finish chunk) state).1 +
        (finish - (frontiers.foldl (closeSegment finish chunk) state).2) ≤
      state.1 + (finish - state.2) := by
  induction frontiers generalizing state with
  | nil => exact ⟨id, Nat.le_refl _⟩
  | cons frontier frontiers ih =>
    rw [List.foldl_cons]
    by_cases h : frontier ≤ state.2 ∨ frontier ≥ finish
    · rw [closeSegment, if_pos h]
      exact ih state
    · obtain ⟨c, s⟩ := state
      rw [closeSegment_of_mem (by omega) (by omega)]
      obtain ⟨hbefore, hle⟩ := ih (c + chunksFor chunk (frontier - s), frontier)
      have := chunksFor_le chunk (frontier - s)
      exact ⟨fun _ => hbefore (by omega), by omega⟩

theorem segmentedPrefillChunks_eq {boundaries : RebuildBoundaries} (hchunk : 0 < chunk) :
    segmentedPrefillChunks 0 finish chunk boundaries = totalChunks finish chunk
      (visited boundaries.captures boundaries.rewriteFrontiers) (0, 0) := by
  obtain ⟨hbefore, hle⟩ := @foldl_closeSegment_le finish chunk
    (visited boundaries.captures boundaries.rewriteFrontiers) (0, 0)
  unfold segmentedPrefillChunks totalChunks
  dsimp only at hbefore hle ⊢
  generalize (visited _ _).foldl (closeSegment finish chunk) (0, 0) = closed at *
  have hopen := chunksFor_le chunk (finish - closed.2)
  split_ifs with hempty
  · omega
  · rw [chunksFor, if_neg (by omega), Nat.add_assoc]

theorem segmentedPrefillChunks_le {boundaries : RebuildBoundaries} (hchunk : 0 < chunk) :
    segmentedPrefillChunks 0 finish chunk boundaries ≤ finish := by
  have hle := (@foldl_closeSegment_le finish chunk
    (visited boundaries.captures boundaries.rewriteFrontiers) (0, 0)).2
  rw [segmentedPrefillChunks_eq hchunk]
  exact Nat.le_trans (Nat.add_le_add_left (chunksFor_le chunk _) _) (by simpa using hle)

theorem totalChunks_of_ge {frontiers : List Nat} {state : Nat × Nat}
    (h : ∀ b ∈ frontiers, b ≤ state.2 ∨ finish ≤ b) :
    totalChunks finish chunk frontiers state = state.1 + chunksFor chunk (finish - state.2) := by
  suffices hclosed : frontiers.foldl (closeSegment finish chunk) state = state by
    rw [totalChunks, hclosed]
  induction frontiers with
  | nil => rfl
  | cons b frontiers ih =>
    rw [List.foldl_cons, closeSegment, if_pos (h b List.mem_cons_self)]
    exact ih fun b' hb' => h b' (List.mem_cons_of_mem b hb')

end Segments

/-! ## The tail -/

/-- `t` is the largest of `s` and the boundaries up to the frontier. -/
structure TailOf (boundaries : List Nat) (frontier s t : Nat) : Prop where
  mem : t = s ∨ t ∈ boundaries
  start : s ≤ t
  le : t ≤ frontier
  largest : ∀ b ∈ boundaries, b ≤ frontier → b ≤ t

theorem tailOf_foldl {boundaries : List Nat} {frontier s : Nat} (h : s ≤ frontier) :
    TailOf boundaries frontier s (boundaries.foldl (includeRebuildBoundary frontier) s) := by
  induction boundaries generalizing s with
  | nil => exact ⟨.inl rfl, Nat.le_refl s, h, nofun⟩
  | cons b boundaries ih =>
    rw [List.foldl_cons, includeRebuildBoundary]
    split_ifs with hb
    · obtain ⟨hmem, hstart, hle, hlargest⟩ := @ih (max s b) (by omega)
      exact ⟨by grind, by omega, hle, by grind⟩
    · obtain ⟨hmem, hstart, hle, hlargest⟩ := ih h
      exact ⟨by grind, hstart, hle, by grind⟩

theorem tailOf_visited (boundaries : RebuildBoundaries) (frontier : Nat) :
    TailOf (visited boundaries.captures boundaries.rewriteFrontiers) frontier 0
      (rebuildTailBegin boundaries frontier) := by
  obtain ⟨hmem, hstart, hle, hlargest⟩ :=
    @tailOf_foldl boundaries.all frontier 0 (Nat.zero_le frontier)
  simp only [RebuildBoundaries.all, List.mem_append] at hmem hlargest
  exact ⟨hmem.imp_right mem_visited.mpr, hstart, hle, fun b hb => hlargest b (mem_visited.mp hb)⟩

/-- Past the last boundary only the chunks of the tail depend on the frontier. -/
theorem totalChunks_eq_tail {frontiers : List Nat} {first chunk c s t : Nat}
    (hsorted : frontiers.Pairwise (· ≤ ·)) (hs : s ≤ first) (ht : TailOf frontiers first s t) :
    ∃ k, ∀ frontier, first ≤ frontier → (∀ b ∈ frontiers, b ≤ frontier → b ≤ first) →
      totalChunks frontier chunk frontiers (c, s) = k + chunksFor chunk (frontier - t) := by
  -- The boundaries up to `first` close their segments for every later frontier alike, but for one
  -- at `first` itself: there the schedule up to `first` leaves open the segment that it ends.
  induction frontiers generalizing c s with
  | nil =>
    obtain rfl : t = s := by simpa using ht.mem
    exact ⟨c, fun _ _ _ => rfl⟩
  | cons b frontiers ih =>
    obtain ⟨hfirst, hrest⟩ := List.pairwise_cons.mp hsorted
    obtain ⟨hmem, hstart, hle, hlargest⟩ := ht
    have hlater b' (hb' : b' ∈ frontiers) := hlargest b' (List.mem_cons_of_mem b hb')
    by_cases hskip : b ≤ s ∨ first < b
    · obtain ⟨k, hk⟩ := @ih c s hrest hs ⟨by grind, hstart, hle, hlater⟩
      refine ⟨k, fun frontier hfrontier hbounds => ?_⟩
      rw [← hk frontier hfrontier fun b' hb' => hbounds b' (List.mem_cons_of_mem b hb'),
        totalChunks, List.foldl_cons, closeSegment, if_pos (by grind)]
      rfl
    have hb : s < b ∧ b ≤ first := by omega
    have hbt := hlargest b List.mem_cons_self hb.2
    rcases Nat.eq_or_lt_of_le hb.2 with rfl | hlt
    · obtain rfl : t = b := Nat.le_antisymm hle hbt
      refine ⟨c + chunksFor chunk (t - s), fun frontier hfrontier hbounds => ?_⟩
      rcases Nat.eq_or_lt_of_le hfrontier with rfl | hlt
      · rw [totalChunks_of_ge (by grind), Nat.sub_self]
        rfl
      · rw [totalChunks, List.foldl_cons, closeSegment_of_mem hb.1 hlt]
        exact totalChunks_of_ge (by grind)
    · obtain ⟨k, hk⟩ := @ih (c + chunksFor chunk (b - s)) b hrest hb.2 ⟨by grind, hbt, hle, hlater⟩
      refine ⟨k, fun frontier hfrontier hbounds => ?_⟩
      rw [← hk frontier hfrontier fun b' hb' => hbounds b' (List.mem_cons_of_mem b hb'),
        totalChunks, List.foldl_cons, closeSegment_of_mem hb.1 (by omega)]
      rfl

/-! ## Advancing -/

section Advance

variable {build : Build} {chunk items patches : Nat} {boundaries : RebuildBoundaries}

/-- The work of a schedule from the start of the prompt. -/
def rebuildWork (build : Build) (items patches chunk : Nat) (boundaries : RebuildBoundaries)
    (frontier : Nat) : PrefillWork :=
  { makePrefillWork build 0 frontier items patches chunk with
    chunks := segmentedPrefillChunks 0 frontier chunk boundaries }

theorem scheduledPrefillWork_zero (frontier : Nat) :
    scheduledPrefillWork build 0 frontier items patches chunk boundaries =
      .ok (rebuildWork build items patches chunk boundaries frontier) := rfl

/-- A step past the last boundary gives the work of the longer schedule. -/
theorem advance_rebuildWork {k t previous frontier : Nat} (hchunk : 0 < chunk)
    (hle : previous ≤ frontier) (hword : frontier ≤ maxU32) (ht : t ≤ previous)
    (hprevious : segmentedPrefillChunks 0 previous chunk boundaries =
      k + chunksFor chunk (previous - t))
    (hfrontier : segmentedPrefillChunks 0 frontier chunk boundaries =
      k + chunksFor chunk (frontier - t)) :
    advanceSegmentedRebuildWork build (rebuildWork build items patches chunk boundaries previous)
        t previous frontier chunk =
      .ok (rebuildWork build items patches chunk boundaries frontier) := by
  have hfits := @segmentedPrefillChunks_le frontier chunk boundaries hchunk
  unfold maxU32 at hword
  refine refuse_bind_eq_ok_iff.mpr ⟨?_, ?_⟩
  · have htokens :
        (rebuildWork build items patches chunk boundaries previous).tokens = previous := rfl
    omega
  · split_ifs with hsame
    · rw [hsame]
      rfl
    · refine refuse_bind_eq_ok_iff.mpr ⟨?_, ?_⟩
      · show ¬ segmentedPrefillChunks 0 previous chunk boundaries < _
        omega
      · have hchunks : (segmentedPrefillChunks 0 previous chunk boundaries -
            chunksFor chunk (previous - t) + chunksFor chunk (frontier - t)) % 2 ^ 64 =
              segmentedPrefillChunks 0 frontier chunk boundaries := by
          rw [hprevious, Nat.add_sub_cancel, ← hfrontier]
          exact Nat.mod_eq_of_lt (by omega)
        simp only [rebuildWork, hchunks]
        rfl

/-- Every way to cut the rest of the sequence into steps ends at the same work. -/
theorem advanceThrough_rebuildWork {k t previous : Nat} {steps : List Nat} (hchunk : 0 < chunk)
    (hsteps : (previous :: steps).Pairwise (· < ·)) (hword : ∀ f ∈ steps, f ≤ maxU32)
    (ht : t ≤ previous)
    (hsplit : ∀ f ∈ previous :: steps,
      segmentedPrefillChunks 0 f chunk boundaries = k + chunksFor chunk (f - t)) :
    advanceThrough build t chunk previous
        (rebuildWork build items patches chunk boundaries previous) steps =
      .ok (rebuildWork build items patches chunk boundaries (steps.getLastD previous)) := by
  induction steps generalizing previous with
  | nil => rfl
  | cons frontier rest ih =>
    obtain ⟨hnext, hrest⟩ := List.pairwise_cons.mp hsteps
    have hlt : previous < frontier := hnext frontier List.mem_cons_self
    rw [advanceThrough, advance_rebuildWork hchunk (Nat.le_of_lt hlt)
      (hword frontier List.mem_cons_self) ht (hsplit previous List.mem_cons_self)
      (hsplit frontier (List.mem_cons_of_mem _ List.mem_cons_self)), List.getLastD_cons]
    exact ih hrest (fun f hf => hword f (List.mem_cons_of_mem _ hf)) (by omega)
      fun f hf => hsplit f (List.mem_cons_of_mem _ hf)

end Advance

theorem between_of_increasing {first f : Nat} {steps : List Nat}
    (hsteps : (first :: steps).Pairwise (· < ·)) (hf : f ∈ first :: steps) :
    first ≤ f ∧ f ≤ steps.getLastD first := by
  induction steps generalizing first f with
  | nil => simp_all
  | cons next rest ih =>
    obtain ⟨hnext, hrest⟩ := List.pairwise_cons.mp hsteps
    have hlt := hnext next List.mem_cons_self
    rw [List.getLastD_cons]
    rcases List.mem_cons.mp hf with rfl | hf
    · exact ⟨Nat.le_refl _, Nat.le_trans (Nat.le_of_lt hlt) (ih hrest List.mem_cons_self).2⟩
    · exact ⟨Nat.le_of_lt (hnext f hf), (ih hrest hf).2⟩

/-- Rebuild work is path independent: past the last boundary, the steps of a growing sequence end
    at the work of one schedule up to its last frontier, and none of them throws. -/
theorem rebuild_work_path_independent (build : Build) (boundaries : RebuildBoundaries)
    (chunk items patches first : Nat) (steps : List Nat) (hchunk : 1 ≤ chunk)
    (hsteps : (first :: steps).Pairwise (· < ·)) (hword : ∀ f ∈ first :: steps, f ≤ maxU32)
    (hbounds : ∀ b ∈ boundaries.all, b ≤ steps.getLastD first → b ≤ first) :
    ∃ work, scheduledPrefillWork build 0 (steps.getLastD first) items patches chunk boundaries =
        .ok work ∧
      (scheduledPrefillWork build 0 first items patches chunk boundaries >>= fun start =>
        advanceThrough build (rebuildTailBegin boundaries first) chunk first start steps) =
          .ok work := by
  have hvisited := visited_sorted boundaries.captures_sorted boundaries.rewriteFrontiers_sorted
  obtain ⟨k, hk⟩ := @totalChunks_eq_tail _ first chunk 0 0 _ hvisited (Nat.zero_le first)
    (tailOf_visited boundaries first)
  refine ⟨_, scheduledPrefillWork_zero _, ?_⟩
  refine @advanceThrough_rebuildWork _ _ _ _ _ k _ _ _ hchunk hsteps
    (fun f hf => hword f (List.mem_cons_of_mem _ hf)) (tailOf_visited boundaries first).le ?_
  intro f hf
  obtain ⟨hge, hlast⟩ := between_of_increasing hsteps hf
  rw [segmentedPrefillChunks_eq hchunk]
  refine hk f hge fun b hb hle => hbounds b ?_ (Nat.le_trans hle hlast)
  exact List.mem_append.mpr (mem_visited.mp hb)

/-- Ten tokens in chunks of four, with a capture at the third: two ways to get there. -/
theorem rebuild_work_to_ten :
    ∃ work, scheduledPrefillWork .wide 0 10 1 7 4 ⟨[2, 3], [3], by decide, by decide⟩ = .ok work ∧
      (scheduledPrefillWork .wide 0 3 1 7 4 ⟨[2, 3], [3], by decide, by decide⟩ >>= fun start =>
        advanceThrough .wide 3 4 3 start [5, 10]) = .ok work ∧
      (scheduledPrefillWork .wide 0 3 1 7 4 ⟨[2, 3], [3], by decide, by decide⟩ >>= fun start =>
        advanceThrough .wide 3 4 3 start [4, 6, 9, 10]) = .ok work := by
  obtain ⟨work, hwork, hsteps⟩ := rebuild_work_path_independent .wide
    ⟨[2, 3], [3], by decide, by decide⟩ 4 1 7 3 [5, 10] (by decide) (by decide) (by decide)
    (by decide)
  obtain ⟨work', hwork', hsteps'⟩ := rebuild_work_path_independent .wide
    ⟨[2, 3], [3], by decide, by decide⟩ 4 1 7 3 [4, 6, 9, 10] (by decide) (by decide) (by decide)
    (by decide)
  obtain rfl := Except.ok.inj (hwork.symm.trans hwork')
  exact ⟨work, hwork, hsteps, hsteps'⟩

end Ninfer.Qwen
