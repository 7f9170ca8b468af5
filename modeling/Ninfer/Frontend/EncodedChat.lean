/-
  From a rendered chat to token ids: `encode_rendered_chat` of `processor.cpp`.

  All the byte offsets of the chat are given to the tokenizer in one list; the results come back
  in the same order and are taken off one after the other.
-/
import Ninfer.Frontend.Placeholders
import Ninfer.Frontend.Tokenizer

namespace Ninfer.Frontend

open Lib

def imageToken : Nat := 248056

def videoToken : Nat := 248057

structure MediaTokenRun where
  tokenBegin : Nat
  tokenCount : Nat
  modality : Modality
  itemIndex : Nat
  frameIndex : Nat

structure EncodedChat where
  inputIds : List EncodedToken
  rewriteCheckpoint : Option (RewriteCheckpointKind × Nat)
  rewriteExecutionFrontiers : List Nat
  messageBoundaries : List (Option Nat)
  cacheBoundaries : List (Option Nat)
  mediaTokenRuns : List MediaTokenRun

def toFrontier (frontier : Nat) (kind : String) : Except Fault Nat :=
  if frontier > 2 ^ 32 - 1 then .error (.overflowError (kind ++ " token frontier exceeds uint32"))
  else .ok frontier

/-- `tokenized.boundaries.at(boundary_index++)`. -/
def nextBoundary : List TokenBoundaryResult →
    Except Fault (TokenBoundaryResult × List TokenBoundaryResult)
  | [] => .error (.outOfRange "vector::at")
  | b :: rest => .ok (b, rest)

def RenderedChat.byteBoundaries (r : RenderedChat) : List Nat :=
  (r.rewriteCheckpoint.map (·.offset)).toList ++ r.rewriteExecutionBoundaries ++
    r.messageBoundaries.filterMap id ++ r.cacheBoundaries.filterMap id ++
    r.mediaTokenRuns.flatMap fun run => [run.bytes.begin, run.bytes.stop]

def takeCheckpoint (results : List TokenBoundaryResult) : Option RewriteCheckpointByteSpec →
      Except Fault (Option (RewriteCheckpointKind × Nat) × List TokenBoundaryResult)
  | none => .ok (none, results)
  | some c => do
    let (result, results) ← nextBoundary results
    match result.exactFrontier with
    | none => .error (.logicError "rewrite checkpoint is not an exact token boundary")
    | some exact => do
      let frontier ← toFrontier exact "rewrite checkpoint"
      refuse (frontier = 0) (.logicError "rewrite checkpoint has an empty token prefix")
      pure (some (c.kind, frontier), results)

def takeRewriteBoundaries : Nat → List Nat → List TokenBoundaryResult →
    Except Fault (List Nat × List TokenBoundaryResult)
  | 0, frontiers, results => .ok (frontiers, results)
  | remaining + 1, frontiers, results => do
    let (result, results) ← nextBoundary results
    match result.exactFrontier with
    | none => takeRewriteBoundaries remaining frontiers results
    | some exact => do
      let frontier ← toFrontier exact "rewrite execution boundary"
      let frontiers :=
        if frontier ≠ 0 ∧ frontiers.getLast? ≠ some frontier then frontiers ++ [frontier]
        else frontiers
      takeRewriteBoundaries remaining frontiers results

def takeMessageBoundaries : List (Option Nat) → List TokenBoundaryResult →
    Except Fault (List (Option Nat) × List TokenBoundaryResult)
  | [], results => .ok ([], results)
  | none :: rest, results => do
    let (frontiers, results) ← takeMessageBoundaries rest results
    pure (none :: frontiers, results)
  | some _ :: rest, results => do
    let (result, results) ← nextBoundary results
    let frontier ← match result.exactFrontier with
      | none => pure none
      | some exact => do
        let frontier ← toFrontier exact "message boundary"
        pure (some frontier)
    let (frontiers, results) ← takeMessageBoundaries rest results
    pure (frontier :: frontiers, results)

def takeCacheBoundaries : List (Option Nat) → List TokenBoundaryResult →
    Except Fault (List (Option Nat) × List TokenBoundaryResult)
  | [], results => .ok ([], results)
  | none :: rest, results => do
    let (frontiers, results) ← takeCacheBoundaries rest results
    pure (none :: frontiers, results)
  | some _ :: rest, results => do
    let (result, results) ← nextBoundary results
    let frontier ← toFrontier result.stableFrontier "cache boundary"
    let (frontiers, results) ← takeCacheBoundaries rest results
    pure (some frontier :: frontiers, results)

def Modality.token : Modality → Nat
  | .image => imageToken
  | .video => videoToken

def takeRuns (ids : List EncodedToken) : List MediaTokenRunByteSpec → List TokenBoundaryResult →
    Except Fault (List MediaTokenRun × List TokenBoundaryResult)
  | [], results => .ok ([], results)
  | run :: rest, results => do
    let (begin, results) ← nextBoundary results
    let (stop, results) ← nextBoundary results
    match begin.exactFrontier, stop.exactFrontier with
    | some tokenBegin, some tokenEnd =>
      if tokenBegin ≥ tokenEnd then
        .error (.logicError "media token run is not an exact nonempty token span")
      else if ¬ ((ids.drop tokenBegin).take (tokenEnd - tokenBegin)).all
          (fun token => token.id = run.modality.token) then
        .error (.logicError "media token run contains a non-media token")
      else do
        let (runs, results) ← takeRuns ids rest results
        pure (⟨tokenBegin, tokenEnd - tokenBegin, run.modality, run.itemIndex, run.frameIndex⟩ ::
          runs, results)
    | _, _ => .error (.logicError "media token run is not an exact nonempty token span")

def encodeRenderedChat (t : Tokenizer) (u : UnicodeRules) (rendered : RenderedChat)
    (maximumTokens : Nat) : Except Fault EncodedChat := do
  refuse (rendered.mediaPlaceholders ≠ [])
    (.logicError "rendered chat contains unexpanded media placeholders")
  let tokenized ← encodeWithBoundaries t u (bytesOf rendered.text) rendered.byteBoundaries true
    maximumTokens rendered.literalSpans
  if tokenized.inputIds.length = maximumTokens then
    pure { inputIds := tokenized.inputIds, rewriteCheckpoint := none
           rewriteExecutionFrontiers := [], messageBoundaries := [], cacheBoundaries := []
           mediaTokenRuns := [] }
  else do
    let results := tokenized.boundaries
    let (rewriteCheckpoint, results) ← takeCheckpoint results rendered.rewriteCheckpoint
    let (rewriteExecutionFrontiers, results) ←
      takeRewriteBoundaries rendered.rewriteExecutionBoundaries.length [] results
    let (messageBoundaries, results) ← takeMessageBoundaries rendered.messageBoundaries results
    let (cacheBoundaries, results) ← takeCacheBoundaries rendered.cacheBoundaries results
    let (mediaTokenRuns, results) ← takeRuns tokenized.inputIds rendered.mediaTokenRuns results
    refuse (results ≠ [])
      (.logicError "rendered token boundary result count changed during encoding")
    pure { inputIds := tokenized.inputIds, rewriteCheckpoint, rewriteExecutionFrontiers
           messageBoundaries, cacheBoundaries, mediaTokenRuns }

end Ninfer.Frontend
