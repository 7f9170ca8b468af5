/-
  Admission to the Program of Flash-Next: `inspect_admission` of `program.cpp`.

  The state is what the call reads of the Program: its plan, the continuation slots, the lanes and
  the free groups of the executor. A slot keeps the committed tokens of its checkpoint and nothing
  else of what the model was given; the types, positions and Vision items behind those tokens are
  an argument of the results, the identity a target with `ResidentPrefixIdentity` would keep.

  Counts are `uint32_t`, and their sums wrap. An index that the source does not check reads an
  empty slot. Not modelled: the trace on `stderr`, and of the base plan what is only copied along.
-/
import Ninfer.Engine.PrefillWork
import Ninfer.Qwen.PrefixIdentity

namespace Ninfer.FlashNext

open Lib
open Engine (Build makePrefillWork)
open Resources (CheckpointKind CheckpointRef PrefillWork PrivateSourceMode)
open Qwen (PreparedPromptData ResidentPrefixIdentity prefixItemCount)

/-! ## State -/

inductive ContinuationSlotRole where
  | vacant
  | reservedEndpoint
  | reservedTurnClosure
  | catalogued
  deriving DecidableEq

structure ContinuationSlot where
  role : ContinuationSlotRole := .vacant
  generation : Nat := 1
  committedTokens : List Int32 := []
  committedFrontier : Nat := 0
  kind : CheckpointKind := .sessionEndpoint
  pairedRewriteSlot : Option Nat := none
  pairedRewriteGeneration : Nat := 0

structure LaneState where
  active : Bool := false
  /-- The size of `lane_physical_groups`. -/
  ownedGroups : Nat := 0
  plannedGroups : Nat := 0
  turnClosureContinuationIndex : Option Nat := none
  reusedFromContinuationIndex : Option Nat := none
  reusedFromContinuationGeneration : Option Nat := none

structure Program where
  id : Nat
  resolvedTokens : Nat
  mainPageGroups : Nat
  prefillChunk : Nat
  slots : List ContinuationSlot
  lanes : List LaneState
  availablePhysicalGroups : Nat
  hasContextTransaction : Bool := false
  resourceRevision : Nat := 1

structure ContinuationHandle where
  owner : Nat
  index : Nat
  generation : Nat

inductive PrefixReusePath where
  | root
  | privateEndpoint
  | privateTurnClosure
  deriving DecidableEq

structure RequestBasePlan where
  promptTokens : Nat
  effectiveOutputTokens : Nat
  checkpointSlotsRequired : Nat

/-- The checkpoint a candidate resumes from, with the owner the Engine knows it by. -/
structure SourceCheckpoint where
  continuationIndex : Nat
  continuationGeneration : Nat
  checkpointIndex : Nat
  checkpointGeneration : Nat
  deriving DecidableEq

structure AdmissionCandidate where
  prefixReusePath : PrefixReusePath
  feasible : Bool
  sourceMode : PrivateSourceMode
  remainingPrefillWork : PrefillWork
  reusableTokens : Nat
  source : Option SourceCheckpoint
  requiredPageGroups : Nat
  planningRevision : Nat
  assessmentDigest : UInt64

namespace Program

variable (s : Program)

def slot (index : Nat) : ContinuationSlot := s.slots.getD index {}

/-- One turn of the loop of `is_slot_protected`. -/
def laneProtects (index : Nat) (st : LaneState) : Bool :=
  st.active ∧ (st.turnClosureContinuationIndex = some index ∨
    st.reusedFromContinuationIndex.any fun owner =>
      (s.slot owner).role = .catalogued ∧
        st.reusedFromContinuationGeneration = some (s.slot owner).generation ∧
        (owner = index ∨ (s.slot owner).pairedRewriteSlot = some index ∧
          (s.slot owner).pairedRewriteGeneration = (s.slot index).generation))

def isSlotProtected (index : Nat) : Bool :=
  index < s.slots.length ∧ (s.slot index).role = .catalogued ∧ s.lanes.any (s.laneProtects index)

def reservedUnownedGroups : Nat :=
  ((s.lanes.filter (·.active)).map fun st => st.plannedGroups - st.ownedGroups).sum % 2 ^ 32

def vacantCheckpointSlots : Nat := s.slots.countP (·.role = .vacant)

def ownerCheckpointSlots (owner : Nat) : Nat :=
  if (s.slot owner).role ≠ .catalogued then 0
  else if (s.slot owner).pairedRewriteSlot.any fun rewrite =>
      rewrite < s.slots.length ∧ (s.slot rewrite).role = .catalogued ∧
        (s.slot rewrite).generation = (s.slot owner).pairedRewriteGeneration ∧
        s.isSlotProtected rewrite = false then 2
  else 1

/-! ## `inspect_admission` -/

/-- The slot of the checkpoint that the Engine selected from an owner. -/
def selectCheckpoint (source : ContinuationHandle) (checkpoint : CheckpointRef) :
    Except Fault Nat :=
  if checkpoint.kind = .turnClosure then
    match (s.slot source.index).pairedRewriteSlot with
    | none => .error (.logicError "Flash-Next catalog rewrite has no checkpoint")
    | some rewrite => do
      refuse (s.slots.length ≤ rewrite)
        (.logicError "Flash-Next catalog rewrite has no checkpoint")
      refuse ((s.slot rewrite).generation ≠ (s.slot source.index).pairedRewriteGeneration)
        (.logicError "Flash-Next catalog rewrite generation is stale")
      return rewrite
  else return source.index

/-- The checks on an offered source. A prompt with other tokens declines it. -/
def matchSource (prompt : PreparedPromptData) (source : ContinuationHandle)
    (checkpoint : CheckpointRef) : Except Fault (Option SourceCheckpoint) := do
  refuse (source.owner ≠ s.id ∨ s.slots.length ≤ source.index)
    (.logicError "Flash-Next admission owner does not belong to this Program")
  let owner := s.slot source.index
  refuse (owner.role ≠ .catalogued ∨ owner.generation ≠ source.generation ∨
      owner.kind ≠ .sessionEndpoint)
    (.logicError "Flash-Next admission owner is stale")
  let index ← s.selectCheckpoint source checkpoint
  let selected := s.slot index
  refuse (selected.role ≠ .catalogued ∨ checkpoint.ordinal ≠ 0 ∨
      checkpoint.kind ≠ selected.kind ∨ checkpoint.frontier ≠ selected.committedFrontier ∨
      checkpoint.frontier = 0 ∨ selected.committedTokens.length < checkpoint.frontier)
    (.logicError "Flash-Next catalog checkpoint disagrees with Program state")
  if prompt.tokenIds.length < checkpoint.frontier ∨
      selected.committedTokens.take checkpoint.frontier ≠
        prompt.tokenIds.take checkpoint.frontier then
    return none
  return some
    { continuationIndex := source.index
      continuationGeneration := source.generation
      checkpointIndex := index
      checkpointGeneration := selected.generation }

def assessmentDigest (feasible : Bool) (reusableTokens promptTokens : Nat) : UInt64 :=
  [if feasible then 0 else 1, reusableTokens.toUInt64, promptTokens.toUInt64].foldl
    (fun digest value => (digest ^^^ value) * 1099511628211) 1469598103934665603

/-- What is left of the call once the source is settled. -/
def candidateFor (build : Build) (base : RequestBasePlan) (destination : Nat)
    (source : Option SourceCheckpoint) (reusableTokens : Nat) (mustRetain : Bool) :
    Option AdmissionCandidate :=
  let totalTokens := (base.promptTokens + (base.effectiveOutputTokens - 1)) % 2 ^ 32
  let requiredGroups := (totalTokens + 255) % 2 ^ 32 / 256
  let additionalGroups := requiredGroups - (reusableTokens + 255) % 2 ^ 32 / 256
  let laneAvailable := (s.lanes.getD destination { active := true }).active = false
  let checkpointSlots := s.vacantCheckpointSlots +
    if mustRetain then 0 else (source.map (s.ownerCheckpointSlots ·.continuationIndex)).getD 0
  let feasible := laneAvailable ∧
    additionalGroups ≤ s.availablePhysicalGroups - s.reservedUnownedGroups ∧
    base.checkpointSlotsRequired ≤ checkpointSlots ∧ s.hasContextTransaction = false
  if s.resolvedTokens < totalTokens ∨ s.mainPageGroups < requiredGroups then none
  else some
    { prefixReusePath := match source with
        | none => .root
        | some source =>
          if (s.slot source.checkpointIndex).kind = .turnClosure then .privateTurnClosure
          else .privateEndpoint
      feasible := feasible
      sourceMode := if source.isSome ∧ mustRetain then .retain else .consumeToActive
      remainingPrefillWork := makePrefillWork build reusableTokens
        (base.promptTokens - reusableTokens) 0 0 s.prefillChunk
      reusableTokens
      source
      requiredPageGroups := requiredGroups
      planningRevision := s.resourceRevision
      assessmentDigest := assessmentDigest feasible reusableTokens base.promptTokens }

def inspectAdmission (build : Build) (prompt : PreparedPromptData) (base : RequestBasePlan)
    (destination : Nat) (source : Option ContinuationHandle) (sharedSource : Option Nat)
    (checkpoint : Option CheckpointRef) (mustRetain : Bool) :
    Except Fault (Option AdmissionCandidate) := do
  refuse (source.isSome ∧ sharedSource.isSome ∨
      (source.isSome || sharedSource.isSome) ≠ checkpoint.isSome)
    (.logicError "Flash-Next admission requires one owner and its selected checkpoint")
  match sharedSource, source, checkpoint with
  | none, some source, some checkpoint => do
    match ← s.matchSource prompt source checkpoint with
    | none => return none
    | some matched =>
      return s.candidateFor build base destination (some matched) checkpoint.frontier mustRetain
  | some _, _, _ => return none
  | _, _, _ => return s.candidateFor build base destination none 0 mustRetain

end Program

/-! ## What reuse has to preserve -/

/-- The prompt agrees with a history on what comes with the first `f` tokens. -/
structure SameInputs (p : PreparedPromptData) (i : ResidentPrefixIdentity) (f : Nat) : Prop where
  tokenTypes : p.tokenTypes.take f = i.tokenTypes.take f
  positions : (p.axis 0).take f = i.positions.1.take f ∧
    (p.axis 1).take f = i.positions.2.1.take f ∧
    (p.axis 2).take f = i.positions.2.2.take f
  /-- No item lies across the frontier, and the items before it have the same content and grid. -/
  visionItems : ∃ n, prefixItemCount p.visionItems f = some n ∧
    prefixItemCount i.visionItems f = some n ∧
    (p.visionItems.take n).map (fun item => (item.contentDigest, item.grid)) =
      (i.visionItems.take n).map fun item => (item.contentDigest, item.grid)

/-- The prompt agrees with a history on every component of the first `f` model inputs. -/
structure SamePrefix (p : PreparedPromptData) (tokens : List Int32) (i : ResidentPrefixIdentity)
    (f : Nat) : Prop extends SameInputs p i f where
  within : f ≤ p.tokenIds.length ∧ f ≤ tokens.length
  tokenIds : p.tokenIds.take f = tokens.take f

namespace Program

variable {s : Program} {prompt : PreparedPromptData}

variable {source : ContinuationHandle} {checkpoint : CheckpointRef}

/-- The checkpoint in the slot `index` passes the checks for the source it is offered with, and has
the tokens of the prompt. -/
structure Offered (s : Program) (prompt : PreparedPromptData) (source : ContinuationHandle)
    (checkpoint : CheckpointRef) (index : Nat) : Prop where
  owner : source.owner = s.id ∧ source.index < s.slots.length
  current : (s.slot source.index).role = .catalogued ∧
    (s.slot source.index).generation = source.generation ∧
    (s.slot source.index).kind = .sessionEndpoint
  selected : s.selectCheckpoint source checkpoint = .ok index
  agrees : (s.slot index).role = .catalogued ∧ checkpoint.ordinal = 0 ∧
    checkpoint.kind = (s.slot index).kind ∧
    checkpoint.frontier = (s.slot index).committedFrontier ∧ checkpoint.frontier ≠ 0 ∧
    checkpoint.frontier ≤ (s.slot index).committedTokens.length
  tokens : checkpoint.frontier ≤ prompt.tokenIds.length ∧
    (s.slot index).committedTokens.take checkpoint.frontier =
      prompt.tokenIds.take checkpoint.frontier

/-- The checkpoint in the slot `index`, as a candidate names it. -/
def named (s : Program) (source : ContinuationHandle) (index : Nat) : SourceCheckpoint :=
  { continuationIndex := source.index
    continuationGeneration := source.generation
    checkpointIndex := index
    checkpointGeneration := (s.slot index).generation }

theorem matchSource_iff {matched : SourceCheckpoint} :
    s.matchSource prompt source checkpoint = .ok (some matched) ↔
      ∃ index, s.Offered prompt source checkpoint index ∧ matched = s.named source index := by
  unfold matchSource
  rw [refuse_bind_eq_ok_iff, refuse_bind_eq_ok_iff, bind_eq_ok_iff]
  simp only [refuse_bind_eq_ok_iff]
  constructor
  · rintro ⟨howner, hcurrent, index, hindex, hagrees, h⟩
    split at h
    · cases h
    · rename_i hsame
      cases h
      simp only [not_or, Nat.not_lt, Nat.not_le, ne_eq, Decidable.not_not] at *
      exact ⟨index, ⟨howner, hcurrent, hindex, hagrees, hsame⟩, rfl⟩
  · rintro ⟨index, ⟨howner, hcurrent, hindex, hagrees, hsame⟩, rfl⟩
    simp only [not_or, Nat.not_lt, Nat.not_le, ne_eq, Decidable.not_not]
    refine ⟨howner, hcurrent, index, hindex, hagrees, ?_⟩
    rw [if_neg (by simpa only [not_or, Nat.not_lt, ne_eq, Decidable.not_not] using hsame)]
    rfl

/-- The request is not too long for the Program. -/
def Fits (s : Program) (base : RequestBasePlan) : Prop :=
  let totalTokens := (base.promptTokens + (base.effectiveOutputTokens - 1)) % 2 ^ 32
  totalTokens ≤ s.resolvedTokens ∧ (totalTokens + 255) % 2 ^ 32 / 256 ≤ s.mainPageGroups

theorem candidateFor_some {build : Build} {base : RequestBasePlan} {destination reusable : Nat}
    {source : Option SourceCheckpoint} {mustRetain : Bool} {candidate : AdmissionCandidate}
    (h : s.candidateFor build base destination source reusable mustRetain = some candidate) :
    s.Fits base ∧ candidate.reusableTokens = reusable ∧ candidate.source = source := by
  dsimp only [candidateFor] at h
  split at h
  · cases h
  · rename_i hfits
    cases h
    simp only [not_or, Nat.not_lt] at hfits
    exact ⟨hfits, rfl, rfl⟩

theorem candidateFor_of_fits {build : Build} {base : RequestBasePlan} {destination reusable : Nat}
    {source : Option SourceCheckpoint} {mustRetain : Bool} (h : s.Fits base) :
    ∃ candidate, s.candidateFor build base destination source reusable mustRetain =
      some candidate := by
  dsimp only [candidateFor]
  rw [if_neg (not_or.mpr ⟨Nat.not_lt.mpr h.1, Nat.not_lt.mpr h.2⟩)]
  exact ⟨_, rfl⟩

/-- A candidate that reuses tokens has the tokens of its checkpoint. It agrees with the history of
the checkpoint in everything the model was given exactly if, wherever an offered checkpoint has the
tokens of a prompt that fits, it also has its types, positions and Vision items. -/
theorem reuse_is_exact_iff (s : Program) (identity : Nat → ResidentPrefixIdentity)
    (build : Build) (prompt : PreparedPromptData) (base : RequestBasePlan) (destination : Nat)
    (source : Option ContinuationHandle) (sharedSource : Option Nat)
    (checkpoint : Option CheckpointRef) (mustRetain : Bool) :
    (∀ candidate, s.inspectAdmission build prompt base destination source sharedSource checkpoint
        mustRetain = .ok (some candidate) → 0 < candidate.reusableTokens →
        ∃ selected, candidate.source = some selected ∧
          SamePrefix prompt (s.slot selected.checkpointIndex).committedTokens
            (identity selected.checkpointIndex) candidate.reusableTokens) ↔
      ∀ source' ∈ source, ∀ checkpoint' ∈ checkpoint, ∀ index, sharedSource = none → s.Fits base →
        s.Offered prompt source' checkpoint' index →
        SameInputs prompt (identity index) checkpoint'.frontier := by
  refine ⟨fun h source' hs checkpoint' hc index hshared hfits hoffered => ?_,
    fun h candidate hcandidate hpos => ?_⟩
  · cases hs
    cases hc
    subst hshared
    obtain ⟨candidate, hcandidate⟩ : ∃ candidate, s.candidateFor build base destination
        (some (s.named source' index)) checkpoint'.frontier mustRetain = some candidate :=
      candidateFor_of_fits hfits
    obtain ⟨-, hreusable, hsource⟩ := candidateFor_some hcandidate
    have hinspect : s.inspectAdmission build prompt base destination (some source') none
        (some checkpoint') mustRetain = .ok (some candidate) := by
      unfold inspectAdmission
      refine refuse_bind_eq_ok_iff.mpr ⟨by simp, ?_⟩
      dsimp only
      rw [matchSource_iff.mpr ⟨index, hoffered, rfl⟩]
      exact congrArg _ hcandidate
    obtain ⟨selected, hselected, hsame⟩ := h candidate hinspect
      (hreusable ▸ Nat.pos_of_ne_zero hoffered.agrees.2.2.2.2.1)
    rw [hsource] at hselected
    cases hselected
    exact hreusable ▸ hsame.toSameInputs
  · obtain ⟨_, h'⟩ := refuse_bind_eq_ok_iff.mp hcandidate
    split at h'
    · obtain ⟨found, hfound, h'⟩ := bind_eq_ok h'
      cases found with
      | none => cases h'
      | some matched =>
        obtain ⟨hfits, hreusable, hsource⟩ := candidateFor_some (Except.ok.inj h')
        obtain ⟨index, hoffered, rfl⟩ := matchSource_iff.mp hfound
        have hinputs := h _ rfl _ rfl index rfl hfits hoffered
        rw [hreusable]
        exact ⟨_, hsource, hinputs, ⟨hoffered.tokens.1, hoffered.agrees.2.2.2.2.2⟩,
          hoffered.tokens.2.symm⟩
    · cases h'
    · -- without a source nothing is reused
      have hreusable := (candidateFor_some (Except.ok.inj h')).2.1
      omega

/-! ## An image that is not compared -/

/-- A prompt of one image between two tokens of text. -/
def imagePrompt (content : UInt8) : PreparedPromptData :=
  { tokenIds := [11, 12, 13]
    tokenTypes := [0, 1, 0]
    positions := [0, 1, 2, 0, 1, 2, 0, 1, 2]
    visionItems :=
      [{ modality := .image, grid := ⟨1, 2, 2⟩, patchBegin := 0, patchCount := 4,
         contentDigest := [content], timestamps := [⟨0⟩], tokenSpans := [⟨1, 1⟩] }]
    rewriteExecutionFrontiers := [] }

/-- One lane, and a checkpoint after the given tokens. -/
def oneCheckpoint (tokens : List Int32) : Program :=
  { id := 0, resolvedTokens := 256, mainPageGroups := 1, prefillChunk := 128
    slots := [{ role := .catalogued, committedTokens := tokens, committedFrontier := 2 }]
    lanes := [{}], availablePhysicalGroups := 1 }

/-- The checkpoint of one image is reused for a prompt with another image. -/
theorem reuse_ignores_image :
    ∃ identity candidate, ResidentPrefixIdentity.assign (imagePrompt 7) = .ok identity ∧
      (oneCheckpoint (imagePrompt 7).tokenIds).inspectAdmission .wide (imagePrompt 8) ⟨3, 1, 1⟩ 0
        (some ⟨0, 0, 1⟩) none (some { frontier := 2 }) false = .ok (some candidate) ∧
      candidate.feasible = true ∧ candidate.reusableTokens = 2 ∧
      ¬ SamePrefix (imagePrompt 8) (imagePrompt 7).tokenIds identity candidate.reusableTokens := by
  refine ⟨_, _, rfl, rfl, by decide +kernel, rfl, fun h => ?_⟩
  obtain ⟨n, hn, -, hitems⟩ := h.visionItems
  cases hn
  exact absurd hitems (by decide)

/-- The checkpoint of an image is reused for a prompt with the same image. -/
theorem reuse_is_exact_for_sameImage :
    ∃ identity candidate, ResidentPrefixIdentity.assign (imagePrompt 7) = .ok identity ∧
      (oneCheckpoint (imagePrompt 7).tokenIds).inspectAdmission .wide (imagePrompt 7) ⟨3, 1, 1⟩ 0
        (some ⟨0, 0, 1⟩) none (some { frontier := 2 }) false = .ok (some candidate) ∧
      candidate.reusableTokens = 2 ∧
      SamePrefix (imagePrompt 7) (imagePrompt 7).tokenIds identity candidate.reusableTokens := by
  refine ⟨_, _, rfl, rfl, rfl, ?_⟩
  have hexact := (reuse_is_exact_iff (oneCheckpoint (imagePrompt 7).tokenIds)
    (fun _ => ⟨[0, 1, 0], ([0, 1, 2], [0, 1, 2], [0, 1, 2]), (imagePrompt 7).visionItems, []⟩)
    .wide (imagePrompt 7) ⟨3, 1, 1⟩ 0 (some ⟨0, 0, 1⟩) none (some { frontier := 2 }) false).mpr
      fun _ _ checkpoint hc _ _ _ _ => by
        cases hc
        exact ⟨rfl, ⟨rfl, rfl, rfl⟩, 1, rfl, rfl, rfl⟩
  obtain ⟨selected, hs, hsame⟩ := hexact _ rfl (by decide)
  cases hs
  exact hsame

end Program

end Ninfer.FlashNext
