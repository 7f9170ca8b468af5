/-
  Media placeholders become runs of pad tokens: `expand_placeholders` of `processor.cpp`.

  Every placeholder of the rendered chat is replaced by the text of its item, and every byte
  offset the chat carries is moved along.

  How a timestamp is printed is up to the language's streams: `seconds` is a parameter. The grid
  of an item is positive, so its sizes are numbers.
-/
import Ninfer.Frontend.ChatTemplate
import Ninfer.Qwen.PrefixIdentity

namespace Ninfer.Frontend

open Lib
open Ninfer.Qwen (maxSize Double)

structure VisionItem where
  modality : Modality
  temporal : Nat
  height : Nat
  width : Nat
  timestamps : List Double

def imagePad : Bytes := ascii "<|image_pad|>"

def videoPad : Bytes := ascii "<|video_pad|>"

def visionStart : Bytes := ascii "<|vision_start|>"

def visionEnd : Bytes := ascii "<|vision_end|>"

def Modality.pad : Modality → Bytes
  | .image => imagePad
  | .video => videoPad

def mergeFactor : Nat := 2

/-- The text so far and the runs in it. -/
structure Expanding where
  out : Text
  runs : List MediaTokenRunByteSpec

def appendRepeated (out : Text) (value : Bytes) (count : Nat) : Except Fault Text :=
  if count > (maxSize - out.length) / value.length then
    .error (.invalidArgument "vision placeholder expansion is too large")
  else .ok (out ++ media (List.replicate count value).flatten)

def appendMediaTokenRun (e : Expanding) (pad : Bytes) (count : Nat) (modality : Modality)
    (itemIndex frameIndex : Nat) : Except Fault Expanding := do
  let out ← appendRepeated e.out pad count
  pure { out, runs := e.runs ++ [⟨⟨e.out.length, out.length⟩, modality, itemIndex, frameIndex⟩] }

section Expansion

variable (seconds : Double → Bytes)

/-- One frame of a video: its time, then its run between the vision markers. -/
def appendFrame (frameTokens itemIndex : Nat) (e : Expanding) (frame : Double × Nat) :
    Except Fault Expanding := do
  let time := ascii "<" ++ seconds frame.1 ++ ascii " seconds>"
  let e ← appendMediaTokenRun { e with out := e.out ++ media time ++ media visionStart } videoPad
    frameTokens .video itemIndex frame.2
  pure { e with out := e.out ++ media visionEnd }

def appendPlaceholder (e : Expanding) (item : VisionItem) (itemIndex : Nat) :
    Except Fault Expanding :=
  let frameTokens := item.height / mergeFactor * (item.width / mergeFactor)
  match item.modality with
  | .image => appendMediaTokenRun e imagePad frameTokens .image itemIndex 0
  | .video =>
    if item.timestamps.length ≠ item.temporal then
      .error (.logicError "video timestamp count does not match grid")
    else item.timestamps.zipIdx.foldlM (appendFrame seconds frameTokens itemIndex) e

structure PlaceholderExpansion where
  sourceBegin : Nat
  sourceEnd : Nat
  renderedEnd : Nat

def mapExpandedBoundary (boundary sourceSize : Nat) (expansions : List PlaceholderExpansion)
    (kind : String) : Except Fault Nat :=
  if boundary > sourceSize then
    .error (.logicError (kind ++ " byte offset exceeds rendered chat"))
  else
    -- `std::upper_bound`: the expansions are ordered, those that end by the boundary come first
    let completed := expansions.takeWhile fun e => e.sourceEnd ≤ boundary
    if (expansions.drop completed.length).head?.any fun next => next.sourceBegin < boundary then
      .error (.logicError (kind ++ " intersects a media placeholder"))
    else
      match completed.getLast? with
      | none => .ok boundary
      | some done => .ok (done.renderedEnd + boundary - done.sourceEnd)

/-- The variables of the loop over the items. -/
structure ExpansionState where
  expanding : Expanding
  expansions : List PlaceholderExpansion
  sourceCursor : Nat

/-- The body of the loop, for one item and its placeholder. -/
def expandStep (source : Text) (s : ExpansionState)
    (entry : (VisionItem × MediaPlaceholderByteSpec) × Nat) : Except Fault ExpansionState := do
  let item := entry.1.1
  let placeholder := entry.1.2
  let index := entry.2
  refuse (placeholder.itemIndex ≠ index ∨ placeholder.modality ≠ item.modality)
    (.invalidArgument "chat media order does not match rendered placeholders")
  let needle := item.modality.pad
  refuse (placeholder.bytes.begin < s.sourceCursor ∨ placeholder.bytes.stop > source.length ∨
      placeholder.bytes.stop - placeholder.bytes.begin ≠ needle.length ∨
      ¬ occursAt source needle placeholder.bytes.begin)
    (.logicError "rendered media placeholder metadata does not match its text")
  let before := (source.drop s.sourceCursor).take (placeholder.bytes.begin - s.sourceCursor)
  let expanding ← appendPlaceholder seconds
    { s.expanding with out := s.expanding.out ++ before } item index
  pure
    { expanding
      expansions := s.expansions ++
        [⟨placeholder.bytes.begin, placeholder.bytes.stop, expanding.out.length⟩]
      sourceCursor := placeholder.bytes.stop }

def mapOptional (map : Nat → Except Fault Nat) : Option Nat → Except Fault (Option Nat)
  | none => .ok none
  | some boundary => do
    let boundary ← map boundary
    pure (some boundary)

def mapCheckpoint (map : Nat → Except Fault Nat) :
    Option RewriteCheckpointByteSpec → Except Fault (Option RewriteCheckpointByteSpec)
  | none => .ok none
  | some c => do
    let offset ← map c.offset
    pure (some { c with offset })

def expandPlaceholders (rendered : RenderedChat) (items : List VisionItem) :
    Except Fault RenderedChat := do
  refuse (rendered.mediaTokenRuns ≠ [])
    (.logicError "rendered chat media placeholders were already expanded")
  refuse (rendered.mediaPlaceholders.length ≠ items.length)
    (.invalidArgument "chat media count does not match rendered placeholders")
  let source := rendered.text
  let s ← (items.zip rendered.mediaPlaceholders).zipIdx.foldlM (expandStep seconds source)
    { expanding := ⟨[], []⟩, expansions := [], sourceCursor := 0 }
  let expanded := s.expanding.out ++ source.drop s.sourceCursor
  let mapBoundary := fun kind boundary =>
    mapExpandedBoundary boundary source.length s.expansions kind
  let rewriteCheckpoint ← mapCheckpoint (mapBoundary "rewrite checkpoint")
    rendered.rewriteCheckpoint
  let rewriteExecutionBoundaries ← rendered.rewriteExecutionBoundaries.mapM
    (mapBoundary "rewrite execution boundary")
  let messageBoundaries ← rendered.messageBoundaries.mapM
    (mapOptional (mapBoundary "message boundary"))
  let cacheBoundaries ← rendered.cacheBoundaries.mapM (mapOptional (mapBoundary "cache boundary"))
  let literalSpans ← rendered.literalSpans.mapM fun span => do
    let begin ← mapBoundary "literal span" span.begin
    let stop ← mapBoundary "literal span" span.stop
    pure (⟨begin, stop⟩ : ByteSpan)
  pure
    { text := expanded
      literalSpans
      mediaPlaceholders := []
      mediaTokenRuns := s.expanding.runs
      rewriteCheckpoint
      rewriteExecutionBoundaries
      messageBoundaries
      cacheBoundaries }

end Expansion

end Ninfer.Frontend
