/-
  Rendered fragments: text with the byte spans the tokenizer must take literally
  (`append_literal_span`, `RenderBuilder` and the slicing helpers of `chat_template.cpp`).

  A byte carries who wrote it. The program does not know this: no function here reads `origin`,
  and every comparison is of bytes. It is what the literal spans are there to remember.
-/
import Ninfer.Lib.Eff

namespace Ninfer.Frontend

open Lib

/-! ## Text -/

/-- Who wrote a byte: the chat template, the expansion of a media placeholder, or the caller. -/
inductive Origin where
  | template
  | media
  | user
  deriving DecidableEq

structure Glyph where
  byte : UInt8
  origin : Origin

abbrev Text := List Glyph

abbrev Bytes := List UInt8

/-- The bytes of an ASCII string. -/
def ascii (s : String) : Bytes := s.toList.map fun c => c.toNat.toUInt8

def bytesOf (t : Text) : Bytes := t.map (·.byte)

def written (o : Origin) (b : Bytes) : Text := b.map fun byte => ⟨byte, o⟩

/-- A string constant of the template. -/
def template (s : String) : Text := written .template (ascii s)

/-- What the caller sent: message parts, tool definitions, calls and reasoning. -/
def user (b : Bytes) : Text := written .user b

/-- What a media item expands to. -/
def media (b : Bytes) : Text := written .media b

/-- `text.compare(pos, needle.size(), needle) == 0` where the needle fits. -/
def occursAt (text : Text) (needle : Bytes) (pos : Nat) : Bool :=
  bytesOf ((text.drop pos).take needle.length) = needle

/-- `text.find(needle)`. -/
def find (text : Text) (needle : Bytes) : Option Nat :=
  (List.range (text.length + 1)).find? fun pos => occursAt text needle pos

/-- `text.rfind(needle)`. -/
def rfind (text : Text) (needle : Bytes) : Option Nat :=
  (List.range (text.length + 1)).reverse.find? fun pos => occursAt text needle pos

/-- `while (begin < end && p(text[begin])) { ++begin; }`, with `end` the end of the text. -/
def skipForward (p : UInt8 → Bool) (text : Text) (begin : Nat) : Nat :=
  begin + ((text.drop begin).takeWhile fun g => p g.byte).length

/-- `while (end > begin && p(text[end - 1])) { --end; }`. -/
def skipBack (p : UInt8 → Bool) (text : Text) (begin : Nat) : Nat → Nat
  | 0 => 0
  | e + 1 =>
    if begin < e + 1 ∧ (text[e]?.any fun g => p g.byte) then skipBack p text begin e else e + 1

def isNewline (b : UInt8) : Bool := b = 10

/-- `std::isspace` in the "C" locale. -/
def isSpace (b : UInt8) : Bool := b = 32 ∨ (9 ≤ b ∧ b ≤ 13)

/-! ## Fragments -/

structure ByteSpan where
  begin : Nat
  stop : Nat

inductive Modality where
  | image
  | video
  deriving DecidableEq

structure MediaPlaceholderByteSpec where
  bytes : ByteSpan
  modality : Modality
  itemIndex : Nat

structure RenderedFragment where
  text : Text
  literalSpans : List ByteSpan
  mediaPlaceholders : List MediaPlaceholderByteSpec

def RenderedFragment.empty : RenderedFragment := ⟨[], [], []⟩

def appendLiteralSpan (spans : List ByteSpan) (span : ByteSpan) : Except Fault (List ByteSpan) :=
  if span.begin = span.stop then .ok spans
  else
    match spans.getLast? with
    | none => .ok [span]
    | some back =>
      if back.stop = span.begin then .ok (spans.dropLast ++ [{ back with stop := span.stop }])
      else if back.stop > span.begin then
        .error (.logicError "rendered literal byte spans overlap")
      else .ok (spans ++ [span])

def ByteSpan.shift (s : ByteSpan) (offset : Nat) : ByteSpan := ⟨offset + s.begin, offset + s.stop⟩

/-- `RenderBuilder`, by the fragment it holds. -/
abbrev RenderBuilder := RenderedFragment

namespace RenderBuilder

variable (b : RenderBuilder)

def size : Nat := b.text.length

def appendTemplate (text : Text) : RenderBuilder :=
  { b with text := b.text ++ text }

def appendLiteral (text : Text) : Except Fault RenderBuilder := do
  let spans ← appendLiteralSpan b.literalSpans ⟨b.text.length, b.text.length + text.length⟩
  pure { b with text := b.text ++ text, literalSpans := spans }

def appendMediaPlaceholder (text : Text) (modality : Modality)
    (itemIndex : Nat) : RenderBuilder :=
  { b with
    text := b.text ++ text
    mediaPlaceholders := b.mediaPlaceholders ++
      [⟨⟨b.text.length, b.text.length + text.length⟩, modality, itemIndex⟩] }

def append (f : RenderedFragment) : Except Fault RenderBuilder := do
  let spans ← f.literalSpans.foldlM
    (fun spans span => appendLiteralSpan spans (span.shift b.text.length)) b.literalSpans
  pure
    { text := b.text ++ f.text
      literalSpans := spans
      mediaPlaceholders := b.mediaPlaceholders ++
        f.mediaPlaceholders.map fun p => { p with bytes := p.bytes.shift b.text.length } }

end RenderBuilder

def literalFragment (text : Text) : Except Fault RenderedFragment :=
  RenderBuilder.appendLiteral .empty text

def trimAsciiWhitespaceBounds (text : Text) : Nat × Nat :=
  let begin := skipForward isSpace text 0
  (begin, skipBack isSpace text begin text.length)

/-- The placeholders of a slice; one that is cut is an error. -/
def slicePlaceholders (begin stop : Nat) :
    List MediaPlaceholderByteSpec → Except Fault (List MediaPlaceholderByteSpec)
  | [] => .ok []
  | p :: rest =>
    if p.bytes.stop ≤ begin ∨ p.bytes.begin ≥ stop then slicePlaceholders begin stop rest
    else if p.bytes.begin < begin ∨ p.bytes.stop > stop then
      .error (.logicError "rendered fragment slice intersects a media placeholder")
    else do
      let rest ← slicePlaceholders begin stop rest
      pure ({ p with bytes := ⟨p.bytes.begin - begin, p.bytes.stop - begin⟩ } :: rest)

/-- The step of `slice_fragment` for one literal span. -/
def sliceSpan (begin stop : Nat) (spans : List ByteSpan) (span : ByteSpan) :
    Except Fault (List ByteSpan) :=
  let clippedBegin := max span.begin begin
  let clippedEnd := min span.stop stop
  if clippedBegin < clippedEnd then
    appendLiteralSpan spans ⟨clippedBegin - begin, clippedEnd - begin⟩
  else .ok spans

def sliceFragment (source : RenderedFragment) (begin stop : Nat) :
    Except Fault RenderedFragment :=
  if begin > stop ∨ stop > source.text.length then
    .error (.logicError "rendered fragment slice is out of range")
  else do
    let spans ← source.literalSpans.foldlM (sliceSpan begin stop) []
    let placeholders ← slicePlaceholders begin stop source.mediaPlaceholders
    pure
      { text := (source.text.drop begin).take (stop - begin)
        literalSpans := spans
        mediaPlaceholders := placeholders }

def trimAsciiWhitespace (fragment : RenderedFragment) : Except Fault RenderedFragment :=
  let bounds := trimAsciiWhitespaceBounds fragment.text
  sliceFragment fragment bounds.1 bounds.2

/-! ## Thinking text inside an assistant turn -/

structure ThinkParts where
  reasoning : RenderedFragment
  content : RenderedFragment

def thinkOpen : Bytes := ascii "<think>"

def thinkClose : Bytes := ascii "</think>"

/-- `derive_think_parts`: the reasoning lies between the last opening before the first closing
tag and that tag; the content is what follows the last closing tag. -/
def deriveThinkParts (content : RenderedFragment) : Except Fault ThinkParts :=
  match find content.text thinkClose with
  | none => .ok { reasoning := .empty, content }
  | some firstClose => do
    let beforeEnd := skipBack isNewline content.text 0 firstClose
    let afterOpen := match rfind (content.text.take beforeEnd) thinkOpen with
      | none => 0
      | some lastOpen => lastOpen + thinkOpen.length
    let reasoningBegin := skipForward isNewline (content.text.take beforeEnd) afterOpen
    let reasoning ← sliceFragment content reasoningBegin beforeEnd
    -- the first closing tag is there, so there is a last one
    let lastClose := (rfind content.text thinkClose).getD firstClose
    let contentBegin := skipForward isNewline content.text (lastClose + thinkClose.length)
    let rest ← sliceFragment content contentBegin content.text.length
    pure { reasoning, content := rest }

end Ninfer.Frontend
