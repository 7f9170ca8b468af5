/-
  What a running sequence maps (`plan_request` of `request_plan_impl.h`; `start_request`,
  `advance_prefill`, the captures, the three kinds of decode round, `append_forced_tokens`,
  `resolve_pending_raw` and `enqueue_dflash_context_append` of `program_impl.h`), driven by the
  Engine (`scheduler.h`, `commit_pending` and the control units of `engine_core.h`).

  A base plan fixes how many KV pages each of the two address spaces of the sequence may grow to.
  Every later call maps ahead of the execution frontier by an amount of its own. The model keeps,
  for every lane, the frontiers, the pending round, the two address spaces as far as pages go, and
  the Engine's generation budget; `mappings` logs every mapping that was asked for.

  What the device answers (how many tokens a round licensed, how many drafts it proposes next,
  how far a prefill chunk got) and what the clients decide (capture offers, accepted tokens,
  cancellation) are arguments of the commands. Token values, the prefix identity and the digests
  (which grow with the ledger) and the columns themselves are left out, and so are the checks of
  `commit_frontier`, which maps nothing. Sums are those of `Nat`, except the two that add a
  draft window, which are those of `std::uint32_t`.
-/
import Ninfer.Lib.Reach

/-- `kPagedKVPageSize`. -/
def Ninfer.pagedKVPageSize : Nat := 64

/-- `pages_for_tokens` of `src/runtime/logical_kv_store.h`. -/
def Ninfer.KVAddressSpaceStore.pagesForTokens (tokens : Nat) : Nat :=
  if tokens = 0 then 0 else 1 + (tokens - 1) / pagedKVPageSize

namespace Ninfer.Qwen

open Lib Function
open KVAddressSpaceStore (pagesForTokens)

inductive SpeculativeBackend where
  | none
  | mtp
  | dflash
  | dflash2
  deriving DecidableEq

def isMaskedDraftBackend (b : SpeculativeBackend) : Prop := b = .dflash ∨ b = .dflash2
  deriving Decidable

/-- `kMtpLookupMaximumDrafts`. -/
def mtpLookupMaximumDrafts : Nat := 15

/-- Addition of `std::uint32_t`. -/
def add32 (a b : Nat) : Nat := (a + b) % 2 ^ 32

/-- The options `validate_target_options` let through. -/
structure SequencePlan where
  capacity : Nat
  speculativeBackend : SpeculativeBackend
  draftWindow : Nat
  prefillChunk : Nat
  maxConcurrency : Nat
  /-- At most the native context. -/
  capacity_le : capacity ≤ 262144
  window_le : draftWindow ≤ 15
  window_pos : speculativeBackend ≠ .none → 0 < draftWindow

namespace SequencePlan

/-- `backend_kv_cache() != nullptr`: the target whose masked drafter is DFlash2 has no full
    draft layers, the one with DFlash has. -/
def backendKvCache (c : SequencePlan) : Prop :=
  c.speculativeBackend = .mtp ∨ c.speculativeBackend = .dflash
  deriving Decidable

end SequencePlan

/-! ## The base plan -/

/-- The part of `RequestBasePlan` that the coverage rests on. -/
structure RequestBasePlan (c : SequencePlan) where
  promptTokens : Nat
  effectiveOutputTokens : Nat
  prompt_pos : 0 < promptTokens
  prompt_le : promptTokens ≤ c.capacity
  output_le : effectiveOutputTokens ≤ c.capacity - promptTokens + 1

namespace RequestBasePlan

variable {c : SequencePlan}

variable (p : RequestBasePlan c)

def reservedContextTokens : Nat :=
  p.promptTokens + if p.effectiveOutputTokens = 0 then 0 else p.effectiveOutputTokens - 1

def textKvPageEntitlement : Nat :=
  pagesForTokens p.reservedContextTokens

-- The sum of the MTP case is one of 64 bits.
def backendKvPageEntitlement : Nat :=
  match c.speculativeBackend with
  | .mtp => pagesForTokens (min c.capacity (p.reservedContextTokens + c.draftWindow - 1))
  | .dflash => pagesForTokens p.reservedContextTokens
  | _ => 0

/-- `initial_mtp_extent` of the staged prefill. -/
def initialMtpExtent : Nat :=
  if c.speculativeBackend = .mtp then
    min c.draftWindow (min (if p.effectiveOutputTokens > 1 then p.effectiveOutputTokens - 2 else 0)
        (if c.capacity - p.promptTokens > 0 then c.capacity - p.promptTokens - 1 else 0))
  else 0

/-- `backend_materialized`: what the start and a published capture map for the backend. -/
def backendMaterialized : Nat :=
  match c.speculativeBackend with
  | .mtp => min c.capacity (add32 p.promptTokens
      (if p.initialMtpExtent = 0 then 0 else p.initialMtpExtent - 1))
  | .dflash => p.promptTokens
  | _ => 0

end RequestBasePlan

def planRequest (c : SequencePlan) (promptTokens requestedOutputTokens : Nat) :
    Except Fault (RequestBasePlan c) :=
  if h0 : promptTokens = 0 then .error (.invalidArgument "prompt must contain tokens")
  else if hc : promptTokens > c.capacity then
    .error (.invalidArgument "prompt exceeds configured context capacity")
  else
    .ok {
      promptTokens
      effectiveOutputTokens := min requestedOutputTokens (c.capacity - promptTokens + 1)
      prompt_pos := Nat.pos_of_ne_zero h0
      prompt_le := Nat.le_of_not_lt hc
      output_le := Nat.min_le_right _ _ }

/-! ## Coverage of one address space -/

/-- An active address space of `KVAddressSpaceStore`, as far as its pages go: those mapped into
    the execution row, and those reserved for its growth. -/
structure KVCoverage where
  pageCount : Nat
  reservation : Nat

namespace KVCoverage

variable (k : KVCoverage)

def entitlement : Nat := k.pageCount + k.reservation

/-- An address space activated with `frontier` tokens of a prefix, or forked from one. -/
def activate (pageCapacity frontier entitlement : Nat) : Except Fault KVCoverage :=
  if entitlement < pagesForTokens frontier ∨ entitlement > pageCapacity then
    .error (.invalidArgument "KV activation entitlement is invalid")
  else .ok ⟨pagesForTokens frontier, entitlement - pagesForTokens frontier⟩

def ensureMappedToTokens (tokens : Nat) : Except Fault KVCoverage :=
  if pagesForTokens tokens > k.entitlement then
    .error (.invalidArgument ("KV coverage exceeds active entitlement: tokens=" ++
      toString tokens ++ " required_pages=" ++ toString (pagesForTokens tokens) ++
      " mapped_pages=" ++ toString k.pageCount ++
      " reserved_pages=" ++ toString k.reservation ++
      " entitlement=" ++ toString k.entitlement))
  else if pagesForTokens tokens ≤ k.pageCount then .ok k
  else .ok ⟨pagesForTokens tokens, k.reservation - (pagesForTokens tokens - k.pageCount)⟩

-- A dropped page goes back to the reservation.
def destructiveTruncate (frontier : Nat) : KVCoverage :=
  ⟨min k.pageCount (pagesForTokens frontier),
    k.reservation + (k.pageCount - pagesForTokens frontier)⟩

def resizeEntitlement (pageCapacity entitlement : Nat) : Except Fault KVCoverage :=
  if entitlement < k.pageCount ∨ entitlement > pageCapacity then
    .error (.invalidArgument "KV entitlement is smaller than mapped pages")
  else .ok ⟨k.pageCount, entitlement - k.pageCount⟩

/-- `prepare_active_snapshot` and `commit_active_snapshot`: the destination takes over the pages
    up to the frontier and the reservation. -/
def activeSnapshot (frontier : Nat) : Except Fault KVCoverage :=
  if frontier = 0 then .error (.logicError "active KV snapshot endpoints are invalid")
  else if k.pageCount ≠ pagesForTokens frontier then
    .error (.logicError "active KV snapshot source has untrimmed suffix pages")
  else .ok k

/-- A call on the backend's address space, where the bundle has one. -/
def onBackend (f : KVCoverage → Except Fault KVCoverage) :
    Option KVCoverage → Except Fault (Option KVCoverage)
  | none => .ok none
  | some k => do return some (← f k)

end KVCoverage

/-! ## Lanes -/

inductive PendingKind where
  | begin
  | ordinary
  | speculative
  deriving DecidableEq

/-- `PendingCandidate`, with the draft count the round left for the next one. -/
structure PendingCandidate where
  kind : PendingKind
  baseE : Nat
  baseS : Nat
  promptTokens : Nat
  produced : Nat
  nextExtent : Nat
  deriving DecidableEq

/-- `Lifecycle`, a pending row with its candidate. A lane that is free has no record. -/
inductive Lifecycle where
  | prefilling
  | active
  | pending (candidate : PendingCandidate)
  | finishable
  deriving DecidableEq

inductive CaptureStage where
  | idle
  /-- The offer is in the Engine's hands. -/
  | offered
  /-- `prepare_active_capture` has run. -/
  | prepared (publishShared : Bool)
  deriving DecidableEq

/-- The staged prefill of a request. -/
structure Prefill where
  base : Nat
  cursor : Nat
  capture : CaptureStage

/-- How the request came by its prefix. -/
inductive SourceMode where
  | root
  | retain
  | consumeToActive

/-- The sequence and the request of a lane. The frontiers and the draft count of a backend that
    is not in use move along and are never read. -/
structure Lane (c : SequencePlan) where
  plan : RequestBasePlan c
  lifecycle : Lifecycle
  prefill : Option Prefill
  outputConstraint : Bool
  logprobs : Bool
  executionFrontier : Nat
  ledgerFrontier : Nat
  ledgerSize : Nat
  textKvValid : Nat
  mtpKvValid : Nat
  dflashContextFrontier : Nat
  mtpDraftCount : Nat
  text : KVCoverage
  backend : Option KVCoverage
  /-- `GenerationBudget::remaining` of the Engine's request. -/
  budget : Nat

/-- One mapping that was asked for: the request's plan, the tokens of either address space, and
    the exception it ended in. -/
structure Mapping (c : SequencePlan) where
  plan : RequestBasePlan c
  textTokens : Nat
  backendTokens : Nat
  refusal : Option Fault

/-- What the Engine admits: the prompt, the output asked for, and the prefix it resumes. -/
structure Admission where
  promptTokens : Nat
  requestedOutputTokens : Nat
  mode : SourceMode
  base : Nat
  outputConstraint : Bool
  logprobs : Bool

structure Program (c : SequencePlan) where
  lanes : Nat → Option (Lane c)
  mappings : List (Mapping c)

/-- `CommitDecision` of one row. -/
structure Decision where
  lane : Nat
  acceptedTokens : Nat
  terminal : Bool
  cancelled : Bool

variable {c : SequencePlan}

namespace Lane

/-- The lane of a request whose bundle was activated, before its prefill. -/
def resumed (plan : RequestBasePlan c) (a : Admission) (text : KVCoverage)
    (backend : Option KVCoverage) : Lane c where
  plan
  lifecycle := .prefilling
  prefill := some ⟨a.base, a.base, .idle⟩
  outputConstraint := a.outputConstraint
  logprobs := a.logprobs
  executionFrontier := 0
  ledgerFrontier := 0
  ledgerSize := plan.promptTokens
  textKvValid := a.base
  mtpKvValid := a.base - 1
  dflashContextFrontier := a.base
  mtpDraftCount := 0
  text
  backend
  budget := plan.effectiveOutputTokens

variable (l : Lane c)

/-- `backend_kv_valid`. -/
def backendKvValid : Nat :=
  match c.speculativeBackend with
  | .mtp => l.mtpKvValid
  | .dflash => l.dflashContextFrontier
  | _ => 0

/-- `ensure_sequence_kv_mapped`. -/
def ensureSequenceKvMapped (mainTokens backendTokens : Nat) : Except Fault (Lane c) :=
  if mainTokens > c.capacity ∨ backendTokens > c.capacity then
    .error (.logicError "KV materialization request is outside the sequence bundle")
  else if backendTokens ≠ 0 ∧ l.backend = none then
    .error (.logicError "backend KV materialization requested without an allocation")
  else do
    let text ← l.text.ensureMappedToTokens mainTokens
    if backendTokens = 0 then return { l with text }
    else
      let backend ← KVCoverage.onBackend (·.ensureMappedToTokens backendTokens) l.backend
      return { l with text, backend }

def trimSequenceKv (mainTokens backendTokens : Nat) : Lane c :=
  { l with
    text := l.text.destructiveTruncate mainTokens
    backend := l.backend.map (·.destructiveTruncate backendTokens) }

/-- The mapping of one row of `enqueue_dflash_context_append`. -/
def appendContext (start count : Nat) : Except Fault (Lane c) :=
  if count = 0 ∨ count > c.draftWindow + 1 then
    .error (.logicError "DFlash context append contains an invalid row")
  else if start + count > c.capacity then
    .error (.logicError "DFlash context append is outside retained target storage")
  else do
    let backend ← KVCoverage.onBackend (·.ensureMappedToTokens (start + count)) l.backend
    return { l with backend }

/-- `resize_sequence_kv_entitlement`. -/
def resizeSequenceKvEntitlement : Except Fault (Lane c) := do
  let pageCapacity := pagesForTokens c.capacity
  let text ← l.text.resizeEntitlement pageCapacity l.plan.textKvPageEntitlement
  let backend ← KVCoverage.onBackend
    (·.resizeEntitlement pageCapacity l.plan.backendKvPageEntitlement) l.backend
  return { l with text, backend }

/-- The sampled token of a finished prefill. -/
def begun (keepPrefill : Bool) : Lane c :=
  { l with
    ledgerSize := l.ledgerSize + 1
    textKvValid := l.plan.promptTokens
    mtpKvValid := l.plan.promptTokens
    dflashContextFrontier := l.plan.promptTokens
    mtpDraftCount := l.plan.initialMtpExtent
    prefill := if keepPrefill then l.prefill else none
    lifecycle := .pending ⟨.begin, 0, 0, l.plan.promptTokens, 1, 0⟩ }

/-- The lane after `processed` more prompt tokens, with a capture group there or not. -/
def advanced (p : Prefill) (processed : Nat) (capture : Bool) : Lane c :=
  { l with
    textKvValid := p.cursor + processed
    mtpKvValid := p.cursor + processed
    dflashContextFrontier := p.cursor + processed
    prefill := some { p with
      cursor := p.cursor + processed
      capture := if capture then .offered else .idle } }

/-- The capture group is behind the prefill; a prompt-frontier capture ends it. -/
def captureDone (p : Prefill) : Lane c :=
  { l with
    prefill :=
      if p.cursor = l.plan.promptTokens ∧ l.lifecycle ≠ .prefilling then none
      else some { p with capture := .idle } }

/-- The active bundle after a shared publication: the snapshots of both address spaces. -/
def snapshot : Except Fault (Lane c) := do
  let text ← l.text.activeSnapshot l.textKvValid
  let backend ← KVCoverage.onBackend (·.activeSnapshot l.backendKvValid) l.backend
  return { l with text, backend }

/-- The columns a row has left in the context behind its next token. -/
def room : Nat := c.capacity - l.executionFrontier - 1

/-- The lane once its row is committed; the Engine then charges its budget. -/
def committed (d : Decision) (executionFrontier ledgerFrontier : Nat) : Lane c :=
  { l with
    executionFrontier
    ledgerFrontier
    lifecycle := if d.terminal then .finishable else .active
    budget := l.budget - d.acceptedTokens }

/-- A speculative row committed up to the accepted tokens of its candidate. The draft context
    stays behind unless the row is terminal. -/
def speculativeCommitted (d : Decision) (p : PendingCandidate) : Lane c :=
  { l.committed d (p.baseE + d.acceptedTokens) (p.baseS + d.acceptedTokens) with
    ledgerSize := l.ledgerSize + d.acceptedTokens
    textKvValid := p.baseE + d.acceptedTokens
    mtpKvValid := p.baseE + d.acceptedTokens
    mtpDraftCount := if d.terminal then 0 else p.nextExtent
    dflashContextFrontier := if d.terminal then p.baseE + d.acceptedTokens else p.baseE }

/-- The lane with `count` forced tokens behind its frontier. -/
def forced (count : Nat) : Lane c :=
  { l with
    ledgerSize := l.ledgerSize + count
    executionFrontier := l.executionFrontier + count
    ledgerFrontier := l.executionFrontier + count + 1
    textKvValid := l.executionFrontier + count
    mtpKvValid := l.executionFrontier + count
    dflashContextFrontier := l.executionFrontier + count
    mtpDraftCount := 0
    budget := l.budget - count }

end Lane

namespace Program

variable (i : Nat)

def setLane (l : Option (Lane c)) : Eff (Program c) Unit :=
  Eff.modify fun s => { s with lanes := update s.lanes i l }

/-- `active_sequence(lane)`. -/
def lane : Eff (Program c) (Lane c) := do
  match (← Eff.get).lanes i with
  | some l => return l
  | none => Eff.raise (.logicError "lane has no active sequence")

/-- `clear_execution_failure_lanes`. -/
def clearLanes (is : List Nat) : Eff (Program c) Unit := Eff.forEach is (setLane · none)

/-- A mapping call on a lane, logged. -/
def mapping (i textTokens backendTokens : Nat) (f : Lane c → Except Fault (Lane c)) :
    Eff (Program c) Unit := do
  let l ← lane i
  match f l with
  | .ok l' =>
    Eff.modify fun s =>
      { s with mappings := ⟨l.plan, textTokens, backendTokens, none⟩ :: s.mappings }
    setLane i (some l')
  | .error e =>
    Eff.modify fun s => { s with
      mappings := ⟨l.plan, textTokens, backendTokens, some e⟩ :: s.mappings }
    Eff.raise e

def mapLane (i mainTokens backendTokens : Nat) : Eff (Program c) Unit :=
  mapping i mainTokens backendTokens (·.ensureSequenceKvMapped mainTokens backendTokens)

/-- One row of `enqueue_dflash_context_append`; a drafter without full layers maps nothing. -/
def appendLane (i start count : Nat) : Eff (Program c) Unit :=
  mapping i 0 (if c.backendKvCache then start + count else 0) (·.appendContext start count)

/-! ## Start -/

/-- The bundle an admitted request starts with: activated or forked up to the reuse base. -/
def activateBundle (plan : RequestBasePlan c) (base : Nat) :
    Except Fault (KVCoverage × Option KVCoverage) := do
  let pageCapacity := pagesForTokens c.capacity
  let text ← KVCoverage.activate pageCapacity base plan.textKvPageEntitlement
  if plan.backendKvPageEntitlement = 0 then return (text, none)
  else
    let frontier := if c.speculativeBackend = .mtp then base - 1 else base
    let backend ← KVCoverage.activate pageCapacity frontier plan.backendKvPageEntitlement
    return (text, some backend)

/-- What `start_request` does to the bundle of a resident source. -/
def settleSource (mode : SourceMode) (base : Nat) (l : Lane c) : Except Fault (Lane c) :=
  match mode with
  | .root => .ok (l.trimSequenceKv base l.backendKvValid)
  | .retain => .ok l
  | .consumeToActive => do
    let resized ← (l.trimSequenceKv base l.backendKvValid).resizeSequenceKvEntitlement
    return resized.trimSequenceKv base l.backendKvValid

/-- `plan_request`, then the materialization, then `start_request`. The budget is the one
    `admit_planned_request` prepares. -/
def start (a : Admission) : Eff (Program c) Unit := do
  let plan ← Eff.answer (planRequest c a.promptTokens a.requestedOutputTokens)
  let (text, backend) ← Eff.answer (activateBundle plan a.base)
  let l ← Eff.answer (settleSource a.mode a.base (.resumed plan a text backend))
  setLane i (some l)
  Eff.onThrow (mapLane i plan.promptTokens plan.backendMaterialized) (clearLanes [i])

/-! ## Prefill -/

/-- `advance_prefill`: a chunk that got `processed` tokens further, and whether a capture group
    ends there. With nothing processed it is the offer of a shared promotion at the reuse base,
    or the sample of a prompt that was reused whole. -/
def advancePrefill (i processed : Nat) (capture : Bool) : Eff (Program c) Unit := do
  let l ← lane i
  match l.lifecycle, l.prefill with
  | .prefilling, some p =>
    if p.capture ≠ .idle then
      Eff.raise (.logicError "prefill cannot advance while a capture offer is pending")
    else if processed = 0 ∧ capture = true ∧ p.cursor ≠ p.base then
      Eff.raise (.logicError "zero-prefill capture is not a shared base promotion")
    else if processed = 0 ∧ capture = true then
      setLane i (some { l with prefill := some { p with capture := .offered } })
    else if p.cursor = l.plan.promptTokens then
      setLane i (some (l.begun false))
    else if processed = 0 ∨ processed > min c.prefillChunk (l.plan.promptTokens - p.cursor) then
      Eff.raise (.logicError "ordinary prefill chunk made invalid progress")
    else if p.cursor + processed < l.plan.promptTokens then
      setLane i (some (l.advanced p processed capture))
    else
      setLane i (some ((l.advanced p processed false).begun capture))
  | _, _ => Eff.raise (.logicError "staged prefill step requires an active concurrent request")

/-! ## Captures -/

/-- `prepare_active_capture`. -/
def prepareCapture (publishShared : Bool) : Eff (Program c) Unit := do
  let l ← lane i
  match l.prefill with
  | some p =>
    if p.capture ≠ .offered then
      Eff.raise (.logicError "active capture offer ownership changed")
    else
      let trimmed := if publishShared then l.trimSequenceKv l.textKvValid l.backendKvValid else l
      setLane i (some
        { trimmed with prefill := some { p with capture := .prepared publishShared } })
  | none => Eff.raise (.logicError "active capture offer ownership changed")

/-- `publish_active_capture`. -/
def publishCapture : Eff (Program c) Unit := do
  let l ← lane i
  match l.prefill with
  | some p =>
    match p.capture with
    | .prepared true => do
      let snapshot ← Eff.answer l.snapshot
      setLane i (some snapshot)
      mapLane i l.plan.promptTokens l.plan.backendMaterialized
      let mapped ← lane i
      setLane i (some (mapped.captureDone p))
    | .prepared false => setLane i (some (l.captureDone p))
    | _ => Eff.raise (.logicError "active capture transaction is stale")
  | none => Eff.raise (.logicError "active capture transaction is stale")

/-- `skip_capture`, or an aborted capture transaction. -/
def dropCapture : Eff (Program c) Unit := do
  let l ← lane i
  match l.prefill with
  | some p => setLane i (some (l.captureDone p))
  | none => Eff.raise (.logicError "active capture offer ownership changed")

/-! ## Decode rounds -/

/-- One row of a decode batch: the budget the Engine licensed, whether a copied continuation
    agrees with the learned drafts, and what the device answers. -/
structure Row where
  lane : Nat
  budget : Nat
  lookup : Bool
  licensed : Nat
  nextExtent : Nat

variable (l : Lane c)

/-- The checks all three rounds make on a row. -/
def decodeReady (budget : Nat) : Prop :=
  l.lifecycle = .active ∧ budget ≠ 0 ∧ l.executionFrontier < c.capacity ∧
  l.ledgerFrontier = l.executionFrontier + 1 ∧ l.ledgerSize = l.ledgerFrontier
  deriving Decidable

/-- `max_by_budget`. -/
def maxByBudget (budget : Nat) : Nat := if budget > 1 then budget - 1 else 0

def appendPending : Eff (Program c) Unit := do
  let l ← lane i
  if l.dflashContextFrontier > l.executionFrontier then
    Eff.raise (.logicError "ordinary target round has an advanced draft context")
  else
    Eff.when (l.dflashContextFrontier < l.executionFrontier) do
      appendLane i l.dflashContextFrontier (l.executionFrontier - l.dflashContextFrontier)
      let mapped ← lane i
      setLane i (some { mapped with dflashContextFrontier := mapped.executionFrontier })

variable (row : Row)

def mapOrdinary : Eff (Program c) Unit := do
  let l ← lane row.lane
  mapLane row.lane (l.executionFrontier + 1)
    (if c.backendKvCache then l.executionFrontier + 1 else 0)

def settleOrdinary : Eff (Program c) Unit := do
  let l ← lane row.lane
  setLane row.lane (some { l with
    textKvValid := l.executionFrontier + 1
    mtpKvValid := l.executionFrontier + 1
    dflashContextFrontier := l.executionFrontier + 1
    mtpDraftCount := 0
    ledgerSize := l.ledgerSize + 1
    lifecycle := .pending ⟨.ordinary, l.executionFrontier, l.ledgerFrontier, 0, 1, 0⟩ })

variable (rows : List Row)

/-- `decode_ordinary_batch`. -/
def decodeOrdinary : Eff (Program c) Unit := do
  Eff.forEach rows fun row => do
    let l ← lane row.lane
    Eff.require (decodeReady l row.budget) (.logicError "ordinary batch row is not decode-ready")
  Eff.when (isMaskedDraftBackend c.speculativeBackend)
    (Eff.forEach rows fun row => appendPending row.lane)
  Eff.forEach rows mapOrdinary
  Eff.forEach rows settleOrdinary

/-- Whether a row of an MTP batch has a useful lookup continuation. -/
def wantsLookup : Prop :=
  l.outputConstraint = false ∧ l.logprobs = false ∧ row.lookup = true ∧ l.mtpDraftCount > 0 ∧
  min mtpLookupMaximumDrafts (min (maxByBudget row.budget) l.room) > c.draftWindow
  deriving Decidable

/-- The drafts a row of an MTP batch verifies. -/
def mtpExtent (useLookup : Bool) (budget : Nat) : Nat :=
  if l.outputConstraint ∨ l.logprobs then 0
  else if useLookup then min mtpLookupMaximumDrafts (min (maxByBudget budget) l.room)
  else min l.mtpDraftCount (min c.draftWindow (min (maxByBudget budget) l.room))

def mapMtp (useLookup : Bool) (row : Row) : Eff (Program c) Unit := do
  let l ← lane row.lane
  let extent := mtpExtent l useLookup row.budget
  mapLane row.lane (l.executionFrontier + extent + 1)
    (min c.capacity (add32 (l.executionFrontier + extent) c.draftWindow))

/-- The row metadata an MTP or masked round accepts from the device. -/
def licensedOk (width maximumDrafts : Nat) : Prop :=
  0 < row.licensed ∧ row.licensed ≤ width ∧ row.licensed ≤ maximumDrafts + 1 ∧
  row.licensed ≤ row.budget ∧ l.executionFrontier + row.licensed ≤ c.capacity
  deriving Decidable

def speculated : Lane c :=
  { l with lifecycle := .pending ⟨.speculative, l.executionFrontier, l.ledgerFrontier, 0,
      row.licensed, row.nextExtent⟩ }

-- An MTP round does not compare the accepted drafts with the extent, only with the width.
def settleMtp (useLookup : Bool) (row : Row) : Eff (Program c) Unit := do
  let l ← lane row.lane
  let verifyK := if useLookup then mtpLookupMaximumDrafts else c.draftWindow
  let proposalK := if useLookup then 1 else c.draftWindow
  Eff.require (licensedOk l row (verifyK + 1) verifyK ∧ row.nextExtent ≤ proposalK)
    (.custom 0 "MTP batch returned invalid row metadata")
  setLane row.lane (some (speculated l row))

/-- `decode_mtp_batch`. -/
def decodeMtp : Eff (Program c) Unit := do
  Eff.forEach rows fun row => do
    let l ← lane row.lane
    Eff.require (decodeReady l row.budget ∧ l.backend ≠ none ∧
        l.mtpKvValid = l.executionFrontier ∧ l.mtpDraftCount ≤ c.draftWindow)
      (.logicError "MTP batch row is not decode-ready")
  let wanting ← Eff.collect rows fun row => do
    let l ← lane row.lane
    return decide (wantsLookup l row)
  let useLookup := wanting.all id
  Eff.forEach rows (mapMtp useLookup)
  Eff.forEach rows (settleMtp useLookup)

/-- The drafts a row of a masked batch verifies. -/
def dflashExtent (budget : Nat) : Nat :=
  if l.outputConstraint ∨ l.logprobs then 0
  else min c.draftWindow (min (maxByBudget budget) l.room)

def mapDFlash : Eff (Program c) Unit := do
  let l ← lane row.lane
  mapLane row.lane (l.executionFrontier + dflashExtent l row.budget + 1)
    (if c.backendKvCache then l.executionFrontier else 0)

def settleDFlash : Eff (Program c) Unit := do
  let l ← lane row.lane
  Eff.require (licensedOk l row (c.draftWindow + 1) (dflashExtent l row.budget))
    (.custom 0 "DFlash batch returned invalid row metadata")
  setLane row.lane (some { speculated l row with dflashContextFrontier := l.executionFrontier })

/-- `decode_dflash_batch`. -/
def decodeDFlash : Eff (Program c) Unit := do
  Eff.forEach rows fun row => do
    let l ← lane row.lane
    Eff.require (decodeReady l row.budget ∧ l.textKvValid = l.executionFrontier ∧
        (c.backendKvCache → l.backend ≠ none) ∧
        l.dflashContextFrontier ≤ l.executionFrontier ∧
        l.executionFrontier - l.dflashContextFrontier ≤ c.draftWindow + 1)
      (.logicError "DFlash batch row is not decode-ready")
  Eff.forEach rows mapDFlash
  Eff.forEach rows settleDFlash

/-- Whether a row of a batch leaves nothing to speculate on. -/
def targetOnly : Prop :=
  l.outputConstraint = true ∨ row.budget ≤ 1 ∨ l.executionFrontier + 1 ≥ c.capacity
  deriving Decidable

/-- `decode_raw`. -/
def decodeRaw : Eff (Program c) Unit := do
  let plain ← Eff.collect rows fun row => do
    let l ← lane row.lane
    return decide (targetOnly l row)
  if c.speculativeBackend = .none ∨ plain.all id = true then decodeOrdinary rows
  else if c.speculativeBackend = .mtp then decodeMtp rows
  else decodeDFlash rows

/-- `decode`. -/
def decode : Eff (Program c) Unit := do
  Eff.require (rows ≠ [] ∧ rows.length ≤ c.maxConcurrency)
    (.invalidArgument "decode membership is invalid")
  Eff.require (rows.map (·.lane)).Nodup (.logicError "decode membership is duplicate or not active")
  Eff.onThrow (decodeRaw rows) (clearLanes (rows.map (·.lane)))

/-! ## Commits -/

variable (d : Decision)

def decisionOk (produced : Nat) : Prop :=
  if d.cancelled then d.acceptedTokens = 0 ∧ d.terminal = true
  else d.acceptedTokens ≠ 0 ∧ d.acceptedTokens ≤ produced ∧
    (d.terminal = false → d.acceptedTokens = produced)
  deriving Decidable

/-- The row's candidate, of one of the kinds of its batch. -/
def candidate (kind : PendingKind) : Eff (Program c) (Lane c × PendingCandidate) := do
  let l ← lane i
  match l.lifecycle with
  | .pending p =>
    if p.kind = kind then return (l, p)
    else Eff.raise (.logicError "pending batch no longer matches Program state")
  | _ => Eff.raise (.logicError "pending batch no longer matches Program state")

/-- The prefill of a committed Begin row: gone, or waiting for its prompt-frontier offer. -/
def offeredPrefill (p : Option Prefill) : Option Prefill :=
  if d.terminal then none else p.map fun p => { p with capture := .offered }

/-- `resolve_non_speculative_pending` of a Begin row. -/
def resolveBegin : Eff (Program c) Unit := do
  let (l, p) ← candidate d.lane .begin
  let l := { l.committed d p.promptTokens (p.promptTokens + 1) with
    mtpDraftCount := if d.terminal then 0 else l.mtpDraftCount
    prefill := offeredPrefill d l.prefill }
  setLane d.lane (some (l.trimSequenceKv l.textKvValid l.backendKvValid))

/-- `resolve_non_speculative_pending` of an ordinary row. -/
def resolveOrdinary : Eff (Program c) Unit := do
  let (l, p) ← candidate d.lane .ordinary
  let l := l.committed d (p.baseE + p.produced) (p.baseS + p.produced)
  setLane d.lane (some (l.trimSequenceKv l.textKvValid l.backendKvValid))

def speculativeBase (p : PendingCandidate) : Prop :=
  l.executionFrontier = p.baseE ∧ l.ledgerFrontier = p.baseS ∧ l.ledgerSize = p.baseS ∧
  l.textKvValid = p.baseE ∧
  (c.speculativeBackend = .mtp → l.mtpKvValid = p.baseE) ∧
  (isMaskedDraftBackend c.speculativeBackend → l.dflashContextFrontier = p.baseE)
  deriving Decidable

def settleSpeculative : Eff (Program c) Unit := do
  let (l, p) ← candidate d.lane .speculative
  if d.cancelled then setLane d.lane none
  else
    let l := l.speculativeCommitted d p
    setLane d.lane (some (l.trimSequenceKv l.textKvValid l.backendKvValid))

/-- `resolve_pending_raw` of a speculative batch. -/
def resolveSpeculative (ds : List Decision) : Eff (Program c) Unit := do
  Eff.forEach ds fun d => do
    let (l, p) ← candidate d.lane .speculative
    Eff.require (speculativeBase l p)
      (.logicError "speculative pending row is not at its recorded base")
  Eff.when (isMaskedDraftBackend c.speculativeBackend)
    (Eff.forEach ds fun d => Eff.when (d.cancelled = false ∧ d.terminal = true) do
      let (_, p) ← candidate d.lane .speculative
      appendLane d.lane p.baseE d.acceptedTokens)
  Eff.forEach ds settleSpeculative

def resolveRow (resolve : Decision → Eff (Program c) Unit) (d : Decision) : Eff (Program c) Unit :=
  if d.cancelled then setLane d.lane none else resolve d

/-- `resolve_pending_raw`: the first row says of which kind the batch is. -/
def resolvePendingRaw (ds : List Decision) (kind : PendingKind) : Eff (Program c) Unit :=
  match kind with
  | .begin => Eff.forEach ds (resolveRow resolveBegin)
  | .ordinary => Eff.forEach ds (resolveRow resolveOrdinary)
  | .speculative => resolveSpeculative ds

/-- `commit`, with the budgets the Engine charges for the accepted tokens. -/
def commit (ds : List Decision) (kind : PendingKind) : Eff (Program c) Unit := do
  Eff.require (ds ≠ [] ∧ (ds.map (·.lane)).Nodup)
    (.logicError "pending transaction capability or decision shape is invalid")
  Eff.onThrow (do
    Eff.forEach ds fun d => do
      let (_, p) ← candidate d.lane kind
      Eff.require (decisionOk d p.produced) (.logicError "pending transaction decision is invalid")
    resolvePendingRaw ds kind) (clearLanes (ds.map (·.lane)))

/-! ## Forced spans -/

def forcedReady (count : Nat) : Prop :=
  l.lifecycle = .active ∧ l.ledgerFrontier = l.executionFrontier + 1 ∧
  l.ledgerSize = l.ledgerFrontier ∧ l.textKvValid = l.executionFrontier ∧
  (c.speculativeBackend = .mtp → l.mtpKvValid = l.executionFrontier) ∧
  (isMaskedDraftBackend c.speculativeBackend → l.dflashContextFrontier ≤ l.executionFrontier) ∧
  l.executionFrontier + count ≤ c.capacity
  deriving Decidable

def forceRow (count i : Nat) : Eff (Program c) Unit := do
  Eff.when (isMaskedDraftBackend c.speculativeBackend) (appendPending i)
  let l ← lane i
  mapLane i (l.executionFrontier + count)
    (if c.backendKvCache then l.executionFrontier + count else 0)
  let mapped ← lane i
  let forced := mapped.forced count
  setLane i (some (forced.trimSequenceKv forced.textKvValid forced.backendKvValid))

/-- `append_forced_tokens`. -/
def appendForcedTokens (members : List Nat) (count : Nat) : Eff (Program c) Unit := do
  Eff.require (members ≠ [] ∧ members.length ≤ c.maxConcurrency ∧ count ≠ 0)
    (.invalidArgument "forced-token membership is invalid")
  Eff.require members.Nodup (.logicError "forced-token membership is duplicate or not active")
  Eff.forEach members fun i => do
    let l ← lane i
    Eff.require (forcedReady l count) (.logicError "forced-token sequence frontier is invalid")
  Eff.onThrow (Eff.forEach members (forceRow count)) (clearLanes members)

/-! ## Runs -/

inductive Command where
  | start (i : Nat) (admission : Admission)
  | advancePrefill (i processed : Nat) (capture : Bool)
  | prepareCapture (i : Nat) (publishShared : Bool)
  | publishCapture (i : Nat)
  | dropCapture (i : Nat)
  | decode (rows : List Row)
  | commit (decisions : List Decision) (kind : PendingKind)
  | appendForcedTokens (members : List Nat) (count : Nat)
  /-- `finish`, `abort`, `abort_pending` or a failed unit: the lane is free again. -/
  | release (i : Nat)

def run : Command → Eff (Program c) Unit
  | .start i admission => start i admission
  | .advancePrefill i processed capture => advancePrefill i processed capture
  | .prepareCapture i publishShared => prepareCapture i publishShared
  | .publishCapture i => publishCapture i
  | .dropCapture i => dropCapture i
  | .decode rows => decode rows
  | .commit decisions kind => commit decisions kind
  | .appendForcedTokens members count => appendForcedTokens members count
  | .release i => setLane i none

/-- The row's lane has a budget of at least `tokens`. -/
def licensed (s : Program c) (i tokens : Nat) : Prop :=
  ∀ l ∈ s.lanes i, tokens ≤ l.budget
  deriving Decidable

/-- What the Engine issues. A lane is started when it is free, from a prefix of the prompt
    (`reuse_base`). `build_round_membership` licenses at most what the budget has left
    (`model_token_budget_remaining`), `preview_model` accepts at most that, and
    `build_control_membership` refuses a control span that does not fit. -/
def May : Command → Program c → Prop
  | .start i a, s => s.lanes i = none ∧ a.base ≤ a.promptTokens
  | .decode rows, s => ∀ row ∈ rows, s.licensed row.lane row.budget
  | .commit ds _, s => ∀ d ∈ ds, s.licensed d.lane d.acceptedTokens
  | .appendForcedTokens members count, s => ∀ i ∈ members, s.licensed i count
  | _, _ => True

instance (k : Command) (s : Program c) : Decidable (May k s) := by
  cases k <;> unfold May <;> infer_instance

/-- The states an Engine can drive the Program to. -/
def Reached (s : Program c) : Prop :=
  Reach (fun s => s = { lanes := fun _ => none, mappings := [] }) run May s

end Program

end Ninfer.Qwen
