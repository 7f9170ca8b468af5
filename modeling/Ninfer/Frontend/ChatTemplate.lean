/-
  The compiled chat template: `CompiledChatTemplate::render` of `chat_template.cpp`.

  The template is one of two fixed texts, known by its digest; what each means is written out in
  the code. A conversation is rendered message by message into one fragment, and the byte offsets
  of the boundaries the caller asked for are noted on the way.

  JSON documents are parsed and their scalars printed by a library, which is a parameter here.
-/
import Ninfer.Frontend.Fragment
import Ninfer.Lib.Fallible

namespace Ninfer.Frontend

open Lib

/-! ## Conversations -/

inductive ChatRole where
  | system
  | developer
  | user
  | assistant
  | tool
  deriving DecidableEq

/-- A part of a message; the renderer does not read the data of a media part. -/
inductive ChatPart where
  | text (value : Bytes)
  | image
  | video

structure ToolCall where
  name : Bytes
  argumentsJson : Bytes

structure ChatMessage where
  role : ChatRole
  parts : List ChatPart
  reasoningContent : Bytes
  toolCalls : List ToolCall
  toolCallId : Bytes

inductive ReasoningEffort where
  | low
  | medium
  | xhigh

inductive PromptContinuationMode where
  | newAssistantTurn
  | continueFinalAssistant
  deriving DecidableEq

inductive PromptCacheMarkerLocation where
  | messageBoundary
  | messagePartBoundary
  | leadingInstructionBoundary
  | toolBoundary
  deriving DecidableEq

structure PromptCacheMarker where
  afterMessageCount : Nat
  location : PromptCacheMarkerLocation
  leadingInstructionBytes : Nat
  afterToolCount : Nat
  afterMessagePartCount : Nat

structure ChatRenderOptions where
  continuation : PromptContinuationMode
  addGenerationPrompt : Bool
  enableThinking : Bool
  reasoningEffort : Option ReasoningEffort
  preserveThinking : Option Bool
  addVisionId : Bool
  toolJsons : List Bytes
  cacheMarkers : List PromptCacheMarker

inductive RewriteCheckpointKind where
  | turnClosure
  | responseReplay

structure RewriteCheckpointByteSpec where
  kind : RewriteCheckpointKind
  offset : Nat

structure MediaTokenRunByteSpec where
  bytes : ByteSpan
  modality : Modality
  itemIndex : Nat
  frameIndex : Nat

structure RenderedChat where
  text : Text
  literalSpans : List ByteSpan
  mediaPlaceholders : List MediaPlaceholderByteSpec
  mediaTokenRuns : List MediaTokenRunByteSpec
  rewriteCheckpoint : Option RewriteCheckpointByteSpec
  rewriteExecutionBoundaries : List Nat
  messageBoundaries : List (Option Nat)
  cacheBoundaries : List (Option Nat)

inductive ChatTemplateSemantics where
  | thinkingToggle
  | reasoningEffort
  deriving DecidableEq

/-! ## JSON -/

/-- A parsed document. The members of an object keep their order. -/
inductive Json where
  | array (items : List Json)
  | object (members : List (Bytes × Json))
  | string (value : Bytes)
  /-- A number, a truth value or null. -/
  | other (token : Bytes)

/-- The JSON library: its parser, and how it prints a string or another scalar. -/
structure JsonLibrary where
  parse : Bytes → Except Fault Json
  dumpString : Bytes → Except Fault Bytes
  dumpOther : Bytes → Except Fault Bytes

section Rendering

variable (lib : JsonLibrary)

mutual

def tojsonText : Json → Except Fault Bytes
  | .array items => do
    let rendered ← tojsonItems items
    pure (ascii "[" ++ rendered ++ ascii "]")
  | .object members => do
    let rendered ← tojsonMembers members
    pure (ascii "\x7b" ++ rendered ++ ascii "\x7d")
  | .string value => lib.dumpString value
  | .other token => lib.dumpOther token

def tojsonItems : List Json → Except Fault Bytes
  | [] => .ok []
  | [item] => tojsonText item
  | item :: rest => do
    let first ← tojsonText item
    let rest ← tojsonItems rest
    pure (first ++ ascii ", " ++ rest)

def tojsonMembers : List (Bytes × Json) → Except Fault Bytes
  | [] => .ok []
  | [(key, value)] => do
    let key ← lib.dumpString key
    let value ← tojsonText value
    pure (key ++ ascii ": " ++ value)
  | (key, value) :: rest => do
    let key ← lib.dumpString key
    let value ← tojsonText value
    let rest ← tojsonMembers rest
    pure (key ++ ascii ": " ++ value ++ ascii ", " ++ rest)

end

def parameterText : Json → Except Fault Bytes
  | .string value => .ok value
  | value => tojsonText lib value

/-! ## Tool calls and tool definitions -/

/-- One argument of a call. -/
def renderParameter (b : RenderBuilder) (member : Bytes × Json) : Except Fault RenderBuilder := do
  let b := b.appendTemplate (template "<parameter=")
  let b ← b.appendLiteral (user member.1)
  let b := b.appendTemplate (template ">\n")
  let value ← parameterText lib member.2
  let b ← b.appendLiteral (user value)
  pure (b.appendTemplate (template "\n</parameter>\n"))

def renderToolCall (call : ToolCall) (allowEmptyArguments : Bool) : Except Fault RenderedFragment :=
  if allowEmptyArguments ∧ call.argumentsJson = [] then do
    let b := RenderBuilder.appendTemplate .empty (template "<tool_call>\n<function=")
    let b ← b.appendLiteral (user call.name)
    pure (b.appendTemplate (template ">\n</function>\n</tool_call>"))
  else do
    let args ← lib.parse call.argumentsJson
    match args with
    | .object members => do
      let b := RenderBuilder.appendTemplate .empty (template "<tool_call>\n<function=")
      let b ← b.appendLiteral (user call.name)
      let b := b.appendTemplate (template ">\n")
      let b ← members.foldlM (renderParameter lib) b
      pure (b.appendTemplate (template "</function>\n</tool_call>"))
    | _ => .error (.invalidArgument "tool call arguments must be a JSON object")

def toolInstructions : String :=
  "\n\nIf you choose to call a function ONLY reply in the following format with NO suffix:\n\n" ++
  "<tool_call>\n" ++
  "<function=example_function_name>\n" ++
  "<parameter=example_parameter_1>\n" ++
  "value_1\n" ++
  "</parameter>\n" ++
  "<parameter=example_parameter_2>\n" ++
  "This is the value for the second parameter\n" ++
  "that can span\n" ++
  "multiple lines\n" ++
  "</parameter>\n" ++
  "</function>\n" ++
  "</tool_call>\n\n" ++
  "<IMPORTANT>\n" ++
  "Reminder:\n" ++
  "- Function calls MUST follow the specified format: an inner <function=...></function> block " ++
  "must be nested within <tool_call></tool_call> XML tags\n" ++
  "- Required parameters MUST be specified\n" ++
  "- You may provide optional reasoning for your function call in natural language BEFORE the " ++
  "function call, but NOT after\n" ++
  "- If there is no function call available, answer the question like normal with your current " ++
  "knowledge and do not tell the user about function calls\n" ++
  "</IMPORTANT>"

def lowReasoningInstructions : String :=
  "Reasoning effort is set to low. Keep your thinking brief and focused, moving directly to " ++
  "the conclusion without unnecessary elaboration."

def xHighReasoningInstructions : String :=
  "Reasoning effort is set to xhigh. Please think carefully through the task, validate key " ++
  "assumptions, consider plausible alternatives, and prioritize correctness, consistency, and " ++
  "clarity in the final answer."

structure RenderedToolsSystemBlock where
  fragment : RenderedFragment
  toolBoundaries : List Nat
  instructionBegin : Option Nat

/-- One tool definition, and the boundary after it. -/
def renderTool (s : RenderBuilder × List Nat) (tool : Bytes) :
    Except Fault (RenderBuilder × List Nat) := do
  let b := s.1.appendTemplate (template "\n")
  let document ← lib.parse tool
  let text ← tojsonText lib document
  let b ← b.appendLiteral (user text)
  pure (b, s.2 ++ [b.size])

def renderToolsSystemBlock (toolJsons : List Bytes) (leadingInstruction : RenderedFragment)
    (reasoningInstructions : Text) : Except Fault RenderedToolsSystemBlock := do
  let b := RenderBuilder.appendTemplate .empty (template "<|im_start|>system\n")
  let b := if reasoningInstructions = [] then b
    else (b.appendTemplate reasoningInstructions).appendTemplate (template "\n\n")
  let b := b.appendTemplate
    (template "# Tools\n\nYou have access to the following functions:\n\n<tools>")
  let (b, toolBoundaries) ← toolJsons.foldlM (renderTool lib) (b, [])
  let b := b.appendTemplate (template "\n</tools>")
  let b := b.appendTemplate (template toolInstructions)
  if leadingInstruction.text = [] then
    pure { fragment := b.appendTemplate (template "<|im_end|>\n")
           toolBoundaries, instructionBegin := none }
  else do
    let b := b.appendTemplate (template "\n\n")
    let instructionBegin := b.size
    let b ← b.append leadingInstruction
    pure { fragment := b.appendTemplate (template "<|im_end|>\n")
           toolBoundaries, instructionBegin := some instructionBegin }

def resolveReasoningInstructions (semantics : ChatTemplateSemantics) (options : ChatRenderOptions) :
    Except Fault Text :=
  match semantics with
  | .thinkingToggle =>
    if options.reasoningEffort.isSome then
      .error (.invalidArgument "loaded chat template does not support reasoning effort")
    else .ok []
  | .reasoningEffort =>
    if options.enableThinking = false then
      if options.reasoningEffort.isSome then
        .error (.invalidArgument "reasoning effort cannot be combined with disabled thinking")
      else .ok []
    else
      match options.reasoningEffort.getD .xhigh with
      | .low => .ok (template lowReasoningInstructions)
      | .medium => .ok []
      | .xhigh => .ok (template xHighReasoningInstructions)

/-! ## Messages -/

def ChatRole.isInstruction : ChatRole → Bool
  | .system | .developer => true
  | _ => false

namespace ChatMessage

def hasMedia (m : ChatMessage) : Bool :=
  m.parts.any fun part => match part with
    | .text _ => false
    | _ => true

def validateInstruction (m : ChatMessage) : Except Fault Unit := do
  refuse (m.hasMedia = true)
    (.invalidArgument "system and developer messages cannot contain images or videos")
  refuse (m.reasoningContent ≠ [] ∨ m.toolCalls ≠ [] ∨ m.toolCallId ≠ [])
    (.invalidArgument "system and developer messages may contain only text content")

/-- Only instruction messages are checked. -/
def validateRole (m : ChatMessage) : Except Fault Unit :=
  if m.role.isInstruction then m.validateInstruction else .ok ()

/-- The counters of a conversation, the fragment so far and the boundary after each part. -/
structure Content where
  out : RenderBuilder
  images : Nat
  videos : Nat
  media : Nat
  partBoundaries : List Nat

def renderPart (addVisionId : Bool) (c : Content) : ChatPart → Except Fault Content
  | .text value => do
    let out ← c.out.appendLiteral (Frontend.user value)
    pure { c with out, partBoundaries := c.partBoundaries ++ [out.size] }
  | .image =>
    let images := c.images + 1
    let out := if addVisionId then
        c.out.appendTemplate (template ("Picture " ++ toString images ++ ": "))
      else c.out
    let out := out.appendTemplate (template "<|vision_start|>")
    let out := out.appendMediaPlaceholder (template "<|image_pad|>") .image c.media
    let out := out.appendTemplate (template "<|vision_end|>")
    .ok { c with
      out, images, media := c.media + 1, partBoundaries := c.partBoundaries ++ [out.size] }
  | .video =>
    let videos := c.videos + 1
    let out := if addVisionId then
        c.out.appendTemplate (template ("Video " ++ toString videos ++ ": "))
      else c.out
    let out := out.appendTemplate (template "<|vision_start|>")
    let out := out.appendMediaPlaceholder (template "<|video_pad|>") .video c.media
    let out := out.appendTemplate (template "<|vision_end|>")
    .ok { c with
      out, videos, media := c.media + 1, partBoundaries := c.partBoundaries ++ [out.size] }

def renderedContent (m : ChatMessage) (addVisionId : Bool) (images videos media : Nat) :
    Except Fault Content :=
  m.parts.foldlM (renderPart addVisionId)
    { out := .empty, images, videos, media, partBoundaries := [] }

end ChatMessage

/-- The message is a user message that only wraps a tool response. -/
def isToolResponse (content : RenderedFragment) : Bool :=
  occursAt content.text (ascii "<tool_response>") 0 ∧
    (ascii "</tool_response>").length ≤ content.text.length ∧
    occursAt content.text (ascii "</tool_response>")
      (content.text.length - (ascii "</tool_response>").length)

/-- The loop of `last_real_user_query`, over the messages from the last to the first. -/
def lastUserQueryFrom : List (ChatMessage × Nat) → Option Nat → Except Fault Nat
  | [], some trailing => .ok trailing
  | [], none => .error (.invalidArgument "no user query found in chat messages")
  | (message, i) :: earlier, trailing =>
    let trailing := if message.role = .tool ∧ trailing = none then some i else trailing
    if message.role ≠ .user then lastUserQueryFrom earlier trailing
    else do
      let raw ← message.renderedContent false 0 0 0
      let content ← trimAsciiWhitespace raw.out
      if isToolResponse content then lastUserQueryFrom earlier trailing else pure i

def lastRealUserQuery (messages : List ChatMessage) : Except Fault Nat :=
  lastUserQueryFrom messages.zipIdx.reverse none

/-! ## The conversation -/

/-- The variables of `render` that its loop changes. -/
structure Rendering where
  rendered : RenderBuilder
  rewriteCheckpoint : Option RewriteCheckpointByteSpec
  rewriteExecutionBoundaries : List Nat
  messageBoundaries : List (Option Nat)
  cacheBoundaries : List (Option Nat)
  images : Nat
  videos : Nat
  media : Nat

namespace Rendering

def appendTemplate (s : Rendering) (text : String) : Rendering :=
  { s with rendered := s.rendered.appendTemplate (template text) }

def append (s : Rendering) (f : RenderedFragment) : Except Fault Rendering := do
  let rendered ← s.rendered.append f
  pure { s with rendered }

def addRewriteExecutionBoundary (s : Rendering) : Rendering :=
  if s.rewriteExecutionBoundaries.getLast? = some s.rendered.size then s
  else { s with rewriteExecutionBoundaries := s.rewriteExecutionBoundaries ++ [s.rendered.size] }

def checkpoint (s : Rendering) (kind : RewriteCheckpointKind) : Rendering :=
  { s with rewriteCheckpoint := some ⟨kind, s.rendered.size⟩ }

/-- `message_boundaries[index] = rendered.size()`. -/
def closeMessage (s : Rendering) (index : Nat) : Rendering :=
  { s with messageBoundaries := s.messageBoundaries.set index (some s.rendered.size) }

end Rendering

/-- What `render` fixed before its loop, for one message: its index, its raw part boundaries and
how its content was trimmed. -/
structure MessageContent where
  index : Nat
  content : RenderedFragment
  partBoundaries : List Nat
  trimBegin : Nat
  trimEnd : Nat

/-- `std::clamp`. -/
def clamp (value low high : Nat) : Nat :=
  if value < low then low else if high < value then high else value

/-- The cache boundary a marker inside the message resolves to. -/
def partBoundary (m : MessageContent) (contentBegin : Nat) (marker : PromptCacheMarker) :
    Option Nat :=
  if marker.location = .messagePartBoundary ∧ marker.afterMessageCount = m.index + 1 ∧
      marker.afterMessagePartCount ≠ 0 then
    (m.partBoundaries[marker.afterMessagePartCount - 1]?).map fun raw =>
      contentBegin + clamp raw m.trimBegin m.trimEnd - m.trimBegin
  else none

/-- `resolve_part_boundaries`, at the place where the content begins. -/
def Rendering.resolvePartBoundaries (s : Rendering) (markers : List PromptCacheMarker)
    (m : MessageContent) : Rendering :=
  { s with
    cacheBoundaries := (markers.zip s.cacheBoundaries).map fun (marker, boundary) =>
      (partBoundary m s.rendered.size marker).or boundary }

/-- What the loop reads and does not change. -/
structure RenderContext where
  semantics : ChatTemplateSemantics
  messages : List ChatMessage
  options : ChatRenderOptions
  lastQueryIndex : Nat
  preserveThinking : Bool

namespace RenderContext

variable (c : RenderContext)

def effortTemplate : Bool := c.semantics = .reasoningEffort

def continuesFinalAssistant : Bool := c.options.continuation = .continueFinalAssistant

/-- A role marker, the content and the end marker. -/
def renderPlain (opener : String) (m : MessageContent) (s : Rendering) :
    Except Fault Rendering := do
  let s := s.appendTemplate opener
  let s := s.resolvePartBoundaries c.options.cacheMarkers m
  let s ← s.append m.content
  pure ((s.appendTemplate "<|im_end|>\n").closeMessage (m.index + 1))

def isToolAt (index : Nat) : Bool := c.messages[index]?.any fun m => m.role = .tool

def renderToolResponse (m : MessageContent) (s : Rendering) : Except Fault Rendering := do
  let opensGroup := m.index = 0 ∨ ¬ c.isToolAt (m.index - 1)
  let closesGroup := ¬ c.isToolAt (m.index + 1)
  let s := if opensGroup then s.appendTemplate "<|im_start|>user" else s
  let s := s.appendTemplate "\n<tool_response>\n"
  let s := s.resolvePartBoundaries c.options.cacheMarkers m
  let s ← s.append m.content
  let s := s.appendTemplate "\n</tool_response>"
  let s := if closesGroup then s.appendTemplate "<|im_end|>\n" else s
  pure (s.closeMessage (m.index + 1))

/-- The final assistant message when generation goes on from it. -/
def renderContinuation (m : MessageContent) (s : Rendering) : Except Fault Rendering := do
  let s := s.checkpoint .responseReplay
  let s := (s.appendTemplate "<|im_start|>assistant\n").addRewriteExecutionBoundary
  let s ← s.append m.content
  pure (s.closeMessage (m.index + 1))

/-- The calls of an assistant message, with what separates them. -/
def renderCalls (bodyHasText : Bool) : List ToolCall → Bool → Rendering → Except Fault Rendering
  | [], _, s => .ok s
  | call :: rest, first, s => do
    let s := if first then (if bodyHasText then s.appendTemplate "\n\n" else s)
      else s.appendTemplate "\n"
    let fragment ← renderToolCall lib call c.effortTemplate
    let s ← s.append fragment
    renderCalls bodyHasText rest false s

/-- The reasoning of an assistant message, untrimmed, and its body. -/
def splitAssistant (message : ChatMessage) (content : RenderedFragment) : Except Fault ThinkParts :=
  if message.reasoningContent ≠ [] then do
    let reasoning ← literalFragment (user message.reasoningContent)
    pure { reasoning, content }
  else if c.effortTemplate then .ok { reasoning := .empty, content }
  else deriveThinkParts content

def renderThinking (keepThinking : Bool) (reasoning : RenderedFragment) (s : Rendering) :
    Except Fault Rendering :=
  if keepThinking then do
    let s := (s.appendTemplate "<think>\n").addRewriteExecutionBoundary
    let s ← s.append reasoning
    pure (s.appendTemplate "\n</think>\n\n").addRewriteExecutionBoundary
  else .ok s

def renderToolCalls (calls : List ToolCall) (body : RenderedFragment) (s : Rendering) :
    Except Fault Rendering :=
  if calls ≠ [] then do
    let trimmed ← trimAsciiWhitespace body
    c.renderCalls lib (trimmed.text ≠ []) calls true s
  else .ok s

def renderAssistant (message : ChatMessage) (m : MessageContent) (s : Rendering) :
    Except Fault Rendering := do
  let parts ← c.splitAssistant message m.content
  let reasoning ← trimAsciiWhitespace parts.reasoning
  let keepThinking := c.preserveThinking ∨ m.index > c.lastQueryIndex
  let s := if ¬ c.options.addGenerationPrompt ∧ ¬ c.preserveThinking ∧
      s.rewriteCheckpoint = none ∧ m.index > c.lastQueryIndex then s.checkpoint .turnClosure else s
  let s := (s.appendTemplate "<|im_start|>assistant\n").addRewriteExecutionBoundary
  let s ← renderThinking keepThinking reasoning s
  let s ← s.append parts.content
  let s ← c.renderToolCalls lib message.toolCalls parts.content s
  pure ((s.appendTemplate "<|im_end|>\n").closeMessage (m.index + 1))

/-- The body of the loop over the messages. -/
def renderMessage (s : Rendering) (entry : ChatMessage × Nat) : Except Fault Rendering := do
  let message := entry.1
  let index := entry.2
  message.validateRole
  let raw ← message.renderedContent c.options.addVisionId s.images s.videos s.media
  let s := { s with images := raw.images, videos := raw.videos, media := raw.media }
  let bounds := trimAsciiWhitespaceBounds raw.out.text
  let content ← sliceFragment raw.out bounds.1 bounds.2
  let m : MessageContent :=
    { index, content, partBoundaries := raw.partBoundaries
      trimBegin := bounds.1, trimEnd := bounds.2 }
  match message.role with
  | .system | .developer => c.renderPlain "<|im_start|>system\n" m s
  | .user => c.renderPlain "<|im_start|>user\n" m s
  | .tool => c.renderToolResponse m s
  | .assistant =>
    if c.continuesFinalAssistant ∧ index + 1 = c.messages.length then renderContinuation m s
    else c.renderAssistant lib message m s

/-- The assistant turn that generation fills in. -/
def renderGenerationPrompt (s : Rendering) : Rendering :=
  if ¬ c.continuesFinalAssistant ∧ c.options.addGenerationPrompt then
    let s :=
      if c.preserveThinking then s.checkpoint .responseReplay
      else if s.rewriteCheckpoint = none then s.checkpoint .turnClosure
      else s
    let s := (s.appendTemplate "<|im_start|>assistant\n").addRewriteExecutionBoundary
    let s := (s.appendTemplate "<think>\n").addRewriteExecutionBoundary
    if c.options.enableThinking then s
    else (s.appendTemplate "\n</think>\n\n").addRewriteExecutionBoundary
  else s

end RenderContext

/-- The checks of `render` on a conversation whose last message is to be continued. -/
def validateContinuation (messages : List ChatMessage) (options : ChatRenderOptions) :
    Except Fault Unit :=
  match if options.continuation = .continueFinalAssistant then messages.getLast? else none with
  | none => .ok ()
  | some final => do
    refuse (final.role ≠ .assistant ∨ final.parts = [] ∨ final.reasoningContent ≠ [] ∨
        final.toolCalls ≠ [])
      (.invalidArgument "assistant continuation requires a final text-only assistant message")
    refuse (final.hasMedia = true)
      (.invalidArgument "assistant continuation requires a final text-only assistant message")
    refuse (options.enableThinking = true)
      (.invalidArgument "assistant continuation cannot start in thinking mode")

/-- A leading instruction message: its text, untrimmed and trimmed, and the trim bounds. -/
structure LeadingInstruction where
  rawLength : Nat
  fragment : RenderedFragment
  trimBegin : Nat
  trimEnd : Nat

def leadingInstruction (message : ChatMessage) : Except Fault LeadingInstruction := do
  message.validateInstruction
  let raw ← message.renderedContent false 0 0 0
  let bounds := trimAsciiWhitespaceBounds raw.out.text
  let fragment ← sliceFragment raw.out bounds.1 bounds.2
  pure { rawLength := raw.out.text.length, fragment, trimBegin := bounds.1, trimEnd := bounds.2 }

/-- The first message, when it is an instruction: it is folded into the system preamble. -/
def leadingOf (messages : List ChatMessage) : Except Fault (Option LeadingInstruction) :=
  match messages.head? with
  | none => .ok none
  | some first =>
    if first.role.isInstruction then do
      let leading ← leadingInstruction first
      pure (some leading)
    else .ok none

/-- The system preamble, the boundaries after its tools and where the instruction begins. -/
def renderPreamble (semantics : ChatTemplateSemantics) (options : ChatRenderOptions)
    (leading : Option LeadingInstruction) (reasoningInstructions : Text) :
    Except Fault RenderedToolsSystemBlock :=
  let fragment := (leading.map (·.fragment)).getD .empty
  if options.toolJsons ≠ [] then
    renderToolsSystemBlock lib options.toolJsons fragment reasoningInstructions
  else if leading.isSome then
    if semantics ≠ .reasoningEffort ∨ fragment.text ≠ [] ∨ reasoningInstructions ≠ [] then do
      let b := RenderBuilder.appendTemplate .empty (template "<|im_start|>system\n")
      let b := if reasoningInstructions = [] then b
        else
          let b := b.appendTemplate reasoningInstructions
          if fragment.text = [] then b else b.appendTemplate (template "\n\n")
      let instructionBegin := if fragment.text = [] then none else some b.size
      let b ← b.append fragment
      pure { fragment := b.appendTemplate (template "<|im_end|>\n")
             toolBoundaries := [], instructionBegin }
    else .ok { fragment := .empty, toolBoundaries := [], instructionBegin := none }
  else if reasoningInstructions ≠ [] then
    let b := RenderBuilder.appendTemplate .empty (template "<|im_start|>system\n")
    let b := (b.appendTemplate reasoningInstructions).appendTemplate (template "<|im_end|>\n")
    .ok { fragment := b, toolBoundaries := [], instructionBegin := none }
  else .ok { fragment := .empty, toolBoundaries := [], instructionBegin := none }

/-- The last loop of `render`: the marker's boundary where it is not inside a message. -/
def resolveMarker (leading : Option LeadingInstruction) (preamble : RenderedToolsSystemBlock)
    (messageBoundaries : List (Option Nat)) (marker : PromptCacheMarker) (boundary : Option Nat) :
    Option Nat :=
  match marker.location with
  | .messageBoundary =>
    match messageBoundaries[marker.afterMessageCount]? with
    | some found => found
    | none => boundary
  | .messagePartBoundary => boundary
  | .leadingInstructionBoundary =>
    match leading, preamble.instructionBegin with
    | some l, some instructionBegin =>
      if marker.leadingInstructionBytes ≤ l.rawLength then
        some (instructionBegin + clamp marker.leadingInstructionBytes l.trimBegin l.trimEnd -
          l.trimBegin)
      else boundary
    | _, _ => boundary
  | .toolBoundary =>
    if marker.afterToolCount ≠ 0 ∧ marker.afterToolCount ≤ preamble.toolBoundaries.length then
      preamble.toolBoundaries[marker.afterToolCount - 1]?
    else boundary

def render (semantics : ChatTemplateSemantics) (messages : List ChatMessage)
    (options : ChatRenderOptions) : Except Fault RenderedChat := do
  refuse (messages = []) (.invalidArgument "chat messages must not be empty")
  validateContinuation messages options
  let reasoningInstructions ← resolveReasoningInstructions semantics options
  let leading ← leadingOf messages
  let messageBegin := if leading.isSome then 1 else 0
  let preamble ← renderPreamble lib semantics options leading reasoningInstructions
  let rendered ← RenderBuilder.append .empty preamble.fragment
  let lastQueryIndex ← lastRealUserQuery messages
  let c : RenderContext :=
    { semantics, messages, options, lastQueryIndex
      preserveThinking := options.preserveThinking.getD (semantics = .reasoningEffort) }
  let s : Rendering :=
    { rendered
      rewriteCheckpoint := none
      rewriteExecutionBoundaries := []
      messageBoundaries := (List.replicate (messages.length + 1) none).set messageBegin
        (some rendered.size)
      cacheBoundaries := List.replicate options.cacheMarkers.length none
      images := 0, videos := 0, media := 0 }
  let s ← (messages.zipIdx.drop messageBegin).foldlM (c.renderMessage lib) s
  let s := c.renderGenerationPrompt s
  pure
    { text := s.rendered.text
      literalSpans := s.rendered.literalSpans
      mediaPlaceholders := s.rendered.mediaPlaceholders
      mediaTokenRuns := []
      rewriteCheckpoint := s.rewriteCheckpoint
      rewriteExecutionBoundaries := s.rewriteExecutionBoundaries
      messageBoundaries := s.messageBoundaries
      cacheBoundaries := (options.cacheMarkers.zip s.cacheBoundaries).map fun (marker, boundary) =>
        resolveMarker leading preamble s.messageBoundaries marker boundary }

end Rendering

end Ninfer.Frontend
