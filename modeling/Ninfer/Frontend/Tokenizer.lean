/-
  The tokenizer: `Tokenizer::encode_with_boundaries` of `tokenizer.cpp`.

  Added tokens are found by a scan from left to right; the text between them is normalised, cut
  into words and encoded by byte pairs. A literal span is text in which no added token may be
  found. An emitted token remembers the bytes it covers when it is an added token; the program
  keeps the id alone.

  Normalisation, the decoding of a codepoint and the categories come from the Unicode library and
  are parameters. The symbols of a word are a linked list in an array: `previous` and `next` are
  indices. Candidates of equal rank and place are equal or stale, so the queue may keep them in any
  order.
-/
import Ninfer.Frontend.Fragment
import Ninfer.Lib.Fallible

namespace Ninfer.Frontend

open Lib

/-! ## What the constructor loads -/

structure AddedToken where
  id : Nat
  content : Bytes

structure BpeMergeRule where
  left : Nat
  right : Nat
  rank : Nat
  result : Nat

structure CodepointSpan where
  value : Nat
  length : Nat

/-- What the encoder asks the Unicode library, and whether marks belong to words. -/
structure UnicodeRules where
  normalizeNfc : Bytes → Except Fault Bytes
  codepointAt : Bytes → Nat → Except Fault CodepointSpan
  isLetter : Nat → Bool
  isMark : Nat → Bool
  isNumber : Nat → Bool
  isWhitespace : Nat → Bool
  includeMarks : Bool

/-- A loaded tokenizer. The constructor refuses an added token without content or with an id of
the vocabulary, and resolves byte symbols and merges in the vocabulary only. -/
structure Tokenizer where
  vocabulary : List Nat
  byteTokenIds : UInt8 → Option Nat
  mergeRules : List BpeMergeRule
  addedTokens : List AddedToken
  byte_mem : ∀ b id, byteTokenIds b = some id → id ∈ vocabulary
  merge_mem : ∀ rule ∈ mergeRules, rule.result ∈ vocabulary
  content_ne : ∀ token ∈ addedTokens, token.content ≠ []
  disjoint : ∀ token ∈ addedTokens, token.id ∉ vocabulary

/-- An id of the output, and the bytes it covers when it stands for an added token. -/
structure EncodedToken where
  id : Nat
  covers : Option ByteSpan

structure TokenBoundaryResult where
  exactFrontier : Option Nat
  stableFrontier : Nat

structure BoundaryEncodedText where
  inputIds : List EncodedToken
  boundaries : List TokenBoundaryResult

structure IndexedByteBoundary where
  offset : Nat
  index : Nat

/-! ## Byte pairs -/

structure BpeNode where
  symbol : Nat
  previous : Option Nat
  next : Option Nat
  stop : Nat
  generation : UInt32
  live : Bool

structure BpeCandidate where
  rank : Nat
  left : Nat
  right : Nat
  result : Nat
  leftGeneration : UInt32
  rightGeneration : UInt32

/-- The candidate comes before the other in the queue. -/
def BpeCandidate.before (a b : BpeCandidate) : Bool :=
  a.rank < b.rank ∨ (a.rank = b.rank ∧ a.left < b.left)

/-- The first candidate of the queue and the others. -/
def popTop : List BpeCandidate → Option (BpeCandidate × List BpeCandidate)
  | [] => none
  | c :: rest =>
    match popTop rest with
    | none => some (c, [])
    | some (d, others) => if d.before c then some (d, c :: others) else some (c, rest)

structure BpeWordEnd where
  normalizedOffset : Nat
  tokenFrontier : Nat

/-- The ids so far, the end of each token of this text, and the ends of its words. -/
structure BpeOutput where
  ids : List EncodedToken
  tokenEnds : List Nat
  wordEnds : List BpeWordEnd

/-! ## Words -/

def isNewlineCodepoint (cp : Nat) : Bool := cp = 13 ∨ cp = 10

def asciiLower (b : UInt8) : UInt8 := if 65 ≤ b ∧ b ≤ 90 then b + 32 else b

def asciiCiMatches (text : Bytes) (offset : Nat) (suffix : Bytes) : Bool :=
  ((text.drop offset).take suffix.length).map asciiLower = suffix.map asciiLower

def contractions : List Bytes := ["s", "t", "re", "ve", "m", "ll", "d"].map ascii

/-- A run of whitespace: its end, where its last codepoint begins and its last newline ends. -/
structure Whitespace where
  stop : Nat
  lastBegin : Nat
  lastNewlineEnd : Option Nat := none
  count : Nat := 0

namespace UnicodeRules

variable (u : UnicodeRules)

def isLetterOrMark (cp : Nat) : Bool := u.isLetter cp || (u.includeMarks && u.isMark cp)

def isNonNewlineNonLetterNonNumber (cp : Nat) : Bool :=
  !isNewlineCodepoint cp && !u.isLetter cp && !u.isNumber cp

def isNonSpaceNonLetterMarkNumber (cp : Nat) : Bool :=
  !u.isWhitespace cp && !u.isLetter cp && (!u.includeMarks || !u.isMark cp) && !u.isNumber cp

variable (text : Bytes)

/-- The loops over codepoints of one sort. A codepoint is not empty, so as many turns as bytes
do. -/
def passWhile (accepts : Nat → Bool) : Nat → Nat → Except Fault Nat
  | 0, stop => .ok stop
  | fuel + 1, stop =>
    if stop < text.length then do
      let c ← u.codepointAt text stop
      if accepts c.value then passWhile accepts fuel (stop + c.length) else pure stop
    else .ok stop

def passWhitespace : Nat → Whitespace → Except Fault Whitespace
  | 0, w => .ok w
  | fuel + 1, w =>
    if w.stop < text.length then do
      let c ← u.codepointAt text w.stop
      let stop := w.stop + c.length
      if u.isWhitespace c.value then
        passWhitespace fuel
          { stop
            lastBegin := w.stop
            lastNewlineEnd := if isNewlineCodepoint c.value then some stop else w.lastNewlineEnd
            count := w.count + 1 }
      else pure w
    else .ok w

/-- `qwen_word_end`. -/
def qwenWordEnd (begin : Nat) : Except Fault Nat := do
  let first ← u.codepointAt text begin
  let afterFirst := begin + first.length
  let cp := first.value
  match if cp = 39 then contractions.find? (asciiCiMatches text afterFirst) else none with
  | some suffix => pure (afterFirst + suffix.length)
  | none => do
    let next ← if afterFirst < text.length then some <$> u.codepointAt text afterFirst
      else pure none
    let nextIs (sort : Nat → Bool) : Bool := next.any fun c => sort c.value
    if u.isLetterOrMark cp ∨
        (u.isNonNewlineNonLetterNonNumber cp ∧ nextIs u.isLetterOrMark) then
      u.passWhile text u.isLetterOrMark text.length
        (if u.isLetterOrMark cp then begin else afterFirst)
    else if u.isNumber cp then pure afterFirst
    else if (cp = 32 ∧ nextIs u.isNonSpaceNonLetterMarkNumber) ∨
        u.isNonSpaceNonLetterMarkNumber cp then do
      let stop ← u.passWhile text u.isNonSpaceNonLetterMarkNumber text.length
        (if cp = 32 then afterFirst else begin)
      u.passWhile text isNewlineCodepoint text.length stop
    else if u.isWhitespace cp then do
      let w ← u.passWhitespace text text.length { stop := begin, lastBegin := begin }
      -- The last blank before a word goes with the word.
      pure (w.lastNewlineEnd.getD (if w.stop = text.length ∨ w.count < 2 then w.stop
        else w.lastBegin))
    else pure afterFirst

end UnicodeRules

section Encoding

variable (t : Tokenizer) (u : UnicodeRules)

def startNode (size : Nat) (entry : UInt8 × Nat) : Except Fault BpeNode :=
  match t.byteTokenIds entry.1 with
  | none => .error (.invalidArgument "Tokenizer::encode produced byte symbol outside vocabulary")
  | some symbol => .ok
    { symbol
      previous := if entry.2 = 0 then none else some (entry.2 - 1)
      next := if entry.2 + 1 = size then none else some (entry.2 + 1)
      stop := entry.2 + 1
      generation := 0
      live := true }

variable (nodes : List BpeNode)

/-- `push_candidate`. -/
def pushCandidate (queue : List BpeCandidate) (left : Nat) :
    List BpeCandidate :=
  match nodes[left]? with
  | none => queue
  | some l =>
    match if l.live then l.next else none with
    | none => queue
    | some right =>
      match nodes[right]? with
      | none => queue
      | some r =>
        match t.mergeRules.find? fun rule => rule.left = l.symbol ∧ rule.right = r.symbol with
        | none => queue
        | some rule => queue ++
          [{ rank := rule.rank, left, right, result := rule.result
             leftGeneration := l.generation, rightGeneration := r.generation }]

/-- The merge of a candidate that is still current. -/
def mergeNodes (c : BpeCandidate) (l r : BpeNode) : List BpeNode :=
  let nodes := nodes.set c.left { l with
    symbol := c.result, stop := r.stop, generation := l.generation + 1, next := r.next }
  let nodes := nodes.set c.right { r with live := false, generation := r.generation + 1 }
  match r.next with
  | none => nodes
  | some n => nodes.modify n fun x => { x with previous := some c.left }

/-- One turn of the loop over the queue, for the candidate it popped. -/
def mergeStep (queue : List BpeCandidate) (c : BpeCandidate) :
    List BpeNode × List BpeCandidate :=
  match nodes[c.left]?, nodes[c.right]? with
  | some l, some r =>
    if ¬ l.live ∨ ¬ r.live ∨ l.next ≠ some c.right ∨ l.generation ≠ c.leftGeneration ∨
        r.generation ≠ c.rightGeneration then (nodes, queue)
    else
      let nodes := mergeNodes nodes c l r
      let queue := match l.previous with
        | none => queue
        | some p => pushCandidate t nodes queue p
      (nodes, pushCandidate t nodes queue c.left)
  | _, _ => (nodes, queue)

/-- The loop over the queue. A merge kills a node and queues at most two candidates, so `fuel` of
three for each live node and one for each candidate is enough. -/
def mergeLoop : Nat → List BpeNode → List BpeCandidate → List BpeNode
  | 0, nodes, _ => nodes
  | fuel + 1, nodes, queue =>
    match popTop queue with
    | none => nodes
    | some (c, queue) =>
      let step := mergeStep t nodes queue c
      mergeLoop fuel step.1 step.2

/-- The nodes of the list from an index on. Links go forward, so as many steps as nodes do. -/
def linked (nodes : List BpeNode) : Nat → Option Nat → List BpeNode
  | 0, _ => []
  | _, none => []
  | fuel + 1, some i =>
    match nodes[i]? with
    | none => []
    | some node => node :: linked nodes fuel node.next

def encodeWord (word : Bytes) : Except Fault (List BpeNode) := do
  let nodes ← word.zipIdx.mapM (startNode t word.length)
  let queue := (List.range (nodes.length - 1)).foldl (pushCandidate t nodes) []
  let nodes := mergeLoop t (3 * nodes.length + queue.length) nodes queue
  pure (linked nodes nodes.length (if nodes = [] then none else some 0))

/-- The symbols of a word go out one by one; false when the limit is reached. -/
def pushNodes (maxTokens begin : Nat) : List BpeNode → BpeOutput → BpeOutput × Bool
  | [], o => (o, true)
  | node :: rest, o =>
    let o := { o with
      ids := o.ids ++ [⟨node.symbol, none⟩]
      tokenEnds := o.tokenEnds ++ [begin + node.stop] }
    if o.ids.length = maxTokens then (o, false) else pushNodes maxTokens begin rest o

/-- The loop over the words. A word is not empty, so as many turns as bytes do. -/
def bpeWords (normalized : Bytes) (maxTokens : Nat) :
    Nat → Nat → BpeOutput → Except Fault (BpeOutput × Bool)
  | 0, _, o => .ok (o, true)
  | fuel + 1, begin, o =>
    if begin < normalized.length then do
      let stop ← u.qwenWordEnd normalized begin
      let nodes ← encodeWord t ((normalized.drop begin).take (stop - begin))
      let (o, complete) := pushNodes maxTokens begin nodes o
      if complete then
        bpeWords normalized maxTokens fuel stop
          { o with wordEnds := o.wordEnds ++ [⟨stop, o.ids.length⟩] }
      else .ok (o, false)
    else .ok (o, true)

def appendNormalizedBpeIds (ids : List EncodedToken) (normalized : Bytes) (maxTokens : Nat) :
    Except Fault (BpeOutput × Bool) :=
  if normalized = [] then .ok (⟨ids, [], []⟩, true)
  else if ids.length = maxTokens then .ok (⟨ids, [], []⟩, false)
  else bpeWords t u normalized maxTokens normalized.length 0 ⟨ids, [], []⟩

/-! ## Ordinary text and the boundaries in it -/

def BoundaryEncodedText.note (e : BoundaryEncodedText) (request : IndexedByteBoundary)
    (result : TokenBoundaryResult) : BoundaryEncodedText :=
  { e with boundaries := e.boundaries.set request.index result }

/-- The same frontier, exact and stable. -/
def TokenBoundaryResult.at (frontier : Nat) : TokenBoundaryResult := ⟨some frontier, frontier⟩

/-- The text normalised piece by piece between the boundaries: the normalised offset of each
boundary, and the whole. -/
def normalizePieces (text : Bytes) (textOffset : Nat) :
    List IndexedByteBoundary → Nat → Bytes → Except Fault (List Nat × Bytes)
  | [], rawBegin, done =>
    if rawBegin ≠ text.length then do
      let piece ← u.normalizeNfc (text.drop rawBegin)
      pure ([], done ++ piece)
    else .ok ([], done)
  | request :: rest, rawBegin, done => do
    let rawEnd := request.offset - textOffset
    let piece ← if rawEnd ≠ rawBegin then
        u.normalizeNfc ((text.drop rawBegin).take (rawEnd - rawBegin)) else pure []
    let (ends, whole) ← normalizePieces text textOffset rest rawEnd (done ++ piece)
    pure ((done ++ piece).length :: ends, whole)

/-- The last loop of `append_ordinary_text`, with its two cursors. -/
def resolveInside (tokenBase : Nat) (o : BpeOutput) :
    List (IndexedByteBoundary × Nat) → Nat → Nat → Nat → BoundaryEncodedText → BoundaryEncodedText
  | [], _, _, _, e => e
  | (request, boundary) :: rest, tokenCursor, wordCursor, stable, e =>
    let tokenCursor := tokenCursor +
      ((o.tokenEnds.drop tokenCursor).takeWhile fun stop => stop ≤ boundary).length
    let passed := (o.wordEnds.drop wordCursor).takeWhile fun w => w.normalizedOffset ≤ boundary
    let stable := (passed.getLast?.map (·.tokenFrontier)).getD stable
    let exact := boundary = 0 ∨ (tokenCursor ≠ 0 ∧ o.tokenEnds[tokenCursor - 1]? = some boundary)
    resolveInside tokenBase o rest tokenCursor (wordCursor + passed.length) stable
      (e.note request ⟨if exact then some (tokenBase + tokenCursor) else none, stable⟩)

variable (text : Bytes)

/-- The boundary lies inside the text and not at an edge of it. -/
def isInternal (textOffset : Nat) (request : IndexedByteBoundary) : Bool :=
  request.offset - textOffset ≠ 0 ∧ request.offset - textOffset ≠ text.length

def appendOrdinaryText (maxTokens : Nat) (encoded : BoundaryEncodedText) (text : Bytes)
    (textOffset : Nat) (requests : List IndexedByteBoundary) :
    Except Fault (BoundaryEncodedText × Bool) :=
  let tokenBase := encoded.inputIds.length
  if text = [] then
    .ok (requests.foldl (fun e request => e.note request (.at tokenBase)) encoded, true)
  else do
    let normalized ← u.normalizeNfc text
    let (o, complete) ← appendNormalizedBpeIds t u encoded.inputIds normalized maxTokens
    let encoded := { encoded with inputIds := o.ids }
    let tokenEnd := o.ids.length
    if ¬ complete then pure (encoded, false)
    else if ¬ requests.any (isInternal text textOffset) then
      pure (requests.foldl (fun e request =>
        e.note request (.at (if request.offset = textOffset then tokenBase else tokenEnd)))
        encoded, true)
    else do
      let (ends, whole) ← normalizePieces u text textOffset requests 0 []
      if whole ≠ normalized then
        -- a boundary splits a composed character: only the edges of the text are exact
        pure (requests.foldl (fun e request =>
          e.note request (if request.offset - textOffset = 0 then .at tokenBase
            else if request.offset - textOffset = text.length then .at tokenEnd
            else ⟨none, tokenBase⟩)) encoded, true)
      else pure (resolveInside tokenBase o (requests.zip ends) 0 0 tokenBase encoded, true)

/-! ## The scan for added tokens -/

/-- The check of the literal spans. -/
def checkLiteralSpans (size : Nat) : List ByteSpan → Nat → Except Fault Unit
  | [], _ => .ok ()
  | span :: rest, previousEnd =>
    if span.begin ≥ span.stop ∨ span.stop > size ∨ span.begin < previousEnd then
      .error (.invalidArgument
        "Tokenizer literal byte spans must be ordered, disjoint, nonempty, and in range")
    else checkLiteralSpans size rest span.stop

structure Scan where
  encoded : BoundaryEncodedText
  boundaryCursor : Nat
  ordinaryBegin : Nat
  pos : Nat
  literalCursor : Nat

/-- `text.compare(pos, content.size(), content) == 0` where the content fits. -/
def contentAt (text content : Bytes) (pos : Nat) : Bool :=
  (text.drop pos).take content.length = content

/-- The loop over the candidates at a position: the first added token that stands there and
overlaps no literal span, and the cursor into the spans. -/
def matchAdded (text : Bytes) (spans : List ByteSpan) (pos : Nat) :
    List AddedToken → Nat → Option AddedToken × Nat
  | [], cursor => (none, cursor)
  | token :: rest, cursor =>
    if contentAt text token.content pos then
      let cursor := cursor + ((spans.drop cursor).takeWhile fun span => span.stop ≤ pos).length
      if spans[cursor]?.any fun span => span.begin < pos + token.content.length then
        matchAdded text spans pos rest cursor
      else (some token, cursor)
    else matchAdded text spans pos rest cursor

/-- `append_ordinary`. -/
def appendOrdinary (boundaries : List IndexedByteBoundary) (maxTokens : Nat)
    (s : Scan) (stop : Nat) : Except Fault (Scan × Bool) := do
  let requests := (boundaries.drop s.boundaryCursor).takeWhile fun b => b.offset ≤ stop
  let (encoded, complete) ← appendOrdinaryText t u maxTokens s.encoded
    ((text.drop s.ordinaryBegin).take (stop - s.ordinaryBegin)) s.ordinaryBegin requests
  pure ({ s with encoded, boundaryCursor := s.boundaryCursor + requests.length }, complete)

/-- The added token goes out; boundaries inside it are not exact, one at its end is. False when
the limit is reached. -/
def pushAdded (boundaries : List IndexedByteBoundary) (maxTokens : Nat) (token : AddedToken)
    (s : Scan) : Scan × Bool :=
  let tokenEnd := s.pos + token.content.length
  let stable := s.encoded.inputIds.length
  let inside := (boundaries.drop s.boundaryCursor).takeWhile fun b => b.offset < tokenEnd
  let encoded := inside.foldl (fun e request => e.note request ⟨none, stable⟩) s.encoded
  let encoded := { encoded with
    inputIds := encoded.inputIds ++ [⟨token.id, some ⟨s.pos, tokenEnd⟩⟩] }
  let s := { s with encoded, boundaryCursor := s.boundaryCursor + inside.length }
  if encoded.inputIds.length = maxTokens then (s, false)
  else
    let here := (boundaries.drop s.boundaryCursor).takeWhile fun b => b.offset = tokenEnd
    let encoded := here.foldl (fun e request => e.note request (.at e.inputIds.length)) encoded
    ({ s with
       encoded, boundaryCursor := s.boundaryCursor + here.length
       pos := tokenEnd, ordinaryBegin := tokenEnd }, true)

/-- The scan. Every turn goes on by a byte at least, so as many turns as bytes do. -/
def scanAdded (text : Bytes) (boundaries : List IndexedByteBoundary) (spans : List ByteSpan)
    (maxTokens : Nat) : Nat → Scan → Except Fault (Scan × Bool)
  | 0, s => .ok (s, true)
  | fuel + 1, s =>
    match text[s.pos]? with
    | none => .ok (s, true)
    | some byte =>
      let candidates := t.addedTokens.filter fun token => token.content.head? = some byte
      let (found, literalCursor) := matchAdded text spans s.pos candidates s.literalCursor
      let s := { s with literalCursor }
      match found with
      | none => scanAdded text boundaries spans maxTokens fuel { s with pos := s.pos + 1 }
      | some token => do
        let (s, complete) ← appendOrdinary t u text boundaries maxTokens s s.pos
        if ¬ complete then pure (s, false)
        else
          let (s, complete) := pushAdded boundaries maxTokens token s
          if ¬ complete then pure (s, false)
          else scanAdded text boundaries spans maxTokens fuel s

def encodeWithBoundaries (byteBoundaries : List Nat) (parseAddedTokens : Bool)
    (maxTokens : Nat) (literalSpans : List ByteSpan) : Except Fault BoundaryEncodedText := do
  let encoded : BoundaryEncodedText :=
    { inputIds := [], boundaries := List.replicate byteBoundaries.length ⟨none, 0⟩ }
  checkLiteralSpans text.length literalSpans 0
  refuse (∃ b ∈ byteBoundaries, b > text.length)
    (.outOfRange "Tokenizer byte boundary exceeds input text")
  -- `std::stable_sort`
  let boundaries := (byteBoundaries.zipIdx.map fun (offset, index) =>
    (⟨offset, index⟩ : IndexedByteBoundary)).insertionSort fun a b => a.offset ≤ b.offset
  let start : Scan :=
    { encoded, boundaryCursor := 0, ordinaryBegin := 0, pos := 0, literalCursor := 0 }
  if maxTokens = 0 then pure encoded
  else if ¬ parseAddedTokens then do
    let (s, _) ← appendOrdinary t u text boundaries maxTokens start text.length
    pure s.encoded
  else do
    let (s, complete) ← scanAdded t u text boundaries literalSpans maxTokens text.length start
    if ¬ complete then pure s.encoded
    else do
      let (s, _) ← appendOrdinary t u text boundaries maxTokens s text.length
      pure s.encoded

end Encoding

end Ninfer.Frontend
