/-
  The identity of a resident prefix: `prefix_identity.cpp`.

  A resident history is kept three times over: the token list, the exact identity of the model
  inputs behind it (`ResidentPrefixIdentity`), and one rolling digest for each token frontier
  (`PrefixShortlistDigests`). A lookup compares digests first and the exact identity only where
  they agree.

  Sizes are numbers; `maxSize` is the largest `size_t`. A double is its bit pattern, compared as
  the language compares doubles. A cursor into a vector is the rest of the list from there on.
  `std::upper_bound` is only asked on ordered lists, where it ends the elements that are not
  greater.

  Not modelled: `reserve`, `clear`, `swap`, and `equals` and `prefix_equals`, which compare two
  residents.
-/
import Ninfer.Lib.Fallible

namespace Ninfer.Qwen

open Lib

/-! ## Prepared prompts -/

/-- A `double` by its bits. -/
structure Double where
  bits : UInt64
  deriving DecidableEq

namespace Double

def isNaN (d : Double) : Bool :=
  d.bits &&& 0x7FF0000000000000 = 0x7FF0000000000000 ∧ d.bits &&& 0x000FFFFFFFFFFFFF ≠ 0

def negativeZero : Double := ⟨0x8000000000000000⟩

def isZero (d : Double) : Bool := d = ⟨0⟩ ∨ d = negativeZero

/-- `a == b`. -/
def eq (a b : Double) : Bool := ¬ a.isNaN ∧ ¬ b.isNaN ∧ (a = b ∨ (a.isZero ∧ b.isZero))

end Double

inductive PromptModality where
  | image
  | video
  deriving DecidableEq

def PromptModality.code : PromptModality → UInt8
  | .image => 1
  | .video => 2

structure VisionGrid where
  temporal : Int32
  height : Int32
  width : Int32
  deriving DecidableEq

structure TokenSpan where
  begin : Nat
  count : Nat
  deriving DecidableEq

structure VisionItem where
  modality : PromptModality
  grid : VisionGrid
  patchBegin : Nat
  patchCount : Nat
  contentDigest : List UInt8
  timestamps : List Double
  tokenSpans : List TokenSpan

structure PreparedPromptData where
  tokenIds : List Int32
  tokenTypes : List UInt8
  /-- Three axes, one after the other. -/
  positions : List Int32
  visionItems : List VisionItem
  rewriteExecutionFrontiers : List Nat

/-- The largest `size_t`. -/
def maxSize : Nat := 2 ^ 64 - 1

def sameSpans (left right : List TokenSpan) : Bool := left = right

def sameItem (left right : VisionItem) : Bool :=
  left.modality = right.modality ∧ left.grid = right.grid ∧ left.patchBegin = right.patchBegin ∧
    left.patchCount = right.patchCount ∧ left.contentDigest = right.contentDigest ∧
    (left.timestamps.length = right.timestamps.length ∧
      (left.timestamps.zip right.timestamps).all fun (a, b) => a.eq b) ∧
    sameSpans left.tokenSpans right.tokenSpans

/-- The loop of `prefix_item_count`. -/
def prefixItemCountFrom (tokens : Nat) : List VisionItem → Bool → Nat → Option Nat
  | [], _, count => some count
  | item :: rest, sawSuffix, count =>
    match item.tokenSpans.head?, item.tokenSpans.getLast? with
    | some first, some last =>
      if first.count = 0 ∨ last.count = 0 ∨ last.begin > maxSize - last.count then none
      else if last.begin + last.count ≤ tokens then
        if sawSuffix then none else prefixItemCountFrom tokens rest sawSuffix (count + 1)
      else if tokens ≤ first.begin then prefixItemCountFrom tokens rest true count
      else none
    | _, _ => none

/-- How many items end at or before the frontier; none when the frontier divides an item. -/
def prefixItemCount (items : List VisionItem) (tokens : Nat) : Option Nat :=
  prefixItemCountFrom tokens items false 0

/-- The elements before `std::upper_bound`. -/
def upTo (frontiers : List Nat) (count : Nat) : List Nat := frontiers.takeWhile (· ≤ count)

/-! ## Digests -/

structure DigestPair where
  low : UInt64
  high : UInt64
  deriving DecidableEq

def digestOffset : DigestPair := ⟨1469598103934665603, 7809847782465536322⟩

def digestPrime : DigestPair := ⟨1099511628211, 14029467366897019727⟩

def tokenDigestDomain : UInt64 := 0x6e696e6665722d74

def rewriteDigestDomain : UInt64 := 0x6e696e6665722d72

def visionDigestDomain : UInt64 := 0x6e696e6665722d76

/-- `std::rotl(value, 29)`. -/
def rotl29 (value : UInt64) : UInt64 := (value <<< 29) ||| (value >>> 35)

/-- The eight bytes of the value, the lowest first, into one lane. -/
def mixLane (prime lane value : UInt64) : UInt64 :=
  (List.range 8).foldl
    (fun lane byte => (lane ^^^ (value >>> (8 * byte).toUInt64).toUInt8.toUInt64) * prime) lane

variable (digest : DigestPair)

def mixDigest (value : UInt64) : DigestPair :=
  { low := mixLane digestPrime.low digest.low value
    high := mixLane digestPrime.high digest.high (rotl29 (value ^^^ 0x9e3779b97f4a7c15)) }

def mixVisionItem (item : VisionItem) : DigestPair :=
  let digest := mixDigest digest visionDigestDomain
  let digest := mixDigest digest item.modality.code.toUInt64
  let digest := mixDigest digest item.grid.temporal.toUInt32.toUInt64
  let digest := mixDigest digest item.grid.height.toUInt32.toUInt64
  let digest := mixDigest digest item.grid.width.toUInt32.toUInt64
  let digest := mixDigest digest item.patchBegin.toUInt64
  let digest := mixDigest digest item.patchCount.toUInt64
  let digest := item.contentDigest.foldl (fun d byte => mixDigest d byte.toUInt64) digest
  let digest := mixDigest digest item.timestamps.length.toUInt64
  let digest := item.timestamps.foldl (fun d t => mixDigest d t.bits) digest
  let digest := mixDigest digest item.tokenSpans.length.toUInt64
  item.tokenSpans.foldl
    (fun d span => mixDigest (mixDigest d span.begin.toUInt64) span.count.toUInt64) digest

/-- What the model reads at one position. -/
structure Row where
  token : Int32
  tokenType : UInt8
  positions : Int32 × Int32 × Int32

def mixRow (row : Row) : DigestPair :=
  let digest := mixDigest digest tokenDigestDomain
  let digest := mixDigest digest row.token.toUInt32.toUInt64
  let digest := mixDigest digest row.tokenType.toUInt64
  let digest := mixDigest digest row.positions.1.toUInt32.toUInt64
  let digest := mixDigest digest row.positions.2.1.toUInt32.toUInt64
  mixDigest digest row.positions.2.2.toUInt32.toUInt64

def mixRewrite (frontier : Nat) : DigestPair :=
  mixDigest (mixDigest digest rewriteDigestDomain) frontier.toUInt64

/-- A lane that came out as zero is one. -/
def DigestPair.settled (d : DigestPair) : DigestPair :=
  { low := if d.low = 0 then 1 else d.low
    high := if d.high = 0 then 1 else d.high }

/-- The markers at the frontier, and the frontiers that are left. -/
def mixRewrites (frontier : Nat) : List Nat → DigestPair → DigestPair × List Nat
  | [], digest => (digest, [])
  | r :: rest, digest =>
    if r = frontier then mixRewrites frontier rest (mixRewrite digest r) else (digest, r :: rest)

/-- `append_digest`: the digests after one more position, and the frontiers that are left. -/
def appendDigest (digests : List DigestPair) (row : Row) (rewrites : List Nat) :
    List DigestPair × List Nat :=
  let mixed := mixRewrites digests.length rewrites (mixRow (digests.getLast?.getD digestOffset) row)
  (digests ++ [mixed.1.settled], mixed.2)

/-! ## `PrefixShortlistDigests` -/

/-- The loop of `checked_vision_end` over the spans. -/
def checkedSpans (promptTokens : Nat) : List TokenSpan → Nat → Except Fault Nat
  | [], previousEnd => .ok previousEnd
  | span :: rest, previousEnd =>
    if span.count = 0 ∨ span.begin > promptTokens ∨ span.count > promptTokens - span.begin ∨
        span.begin < previousEnd then
      .error (.invalidArgument "Vision shortlist item has invalid token spans")
    else checkedSpans promptTokens rest (span.begin + span.count)

def checkedVisionEnd (item : VisionItem) (promptTokens : Nat) : Except Fault Nat :=
  if item.tokenSpans = [] then
    .error (.invalidArgument "Vision shortlist item has no token spans")
  else checkedSpans promptTokens item.tokenSpans 0

/-- The items that end at the frontier. The end of the first item at hand was computed before. -/
def mixVisionItems (promptTokens frontier : Nat) :
    List VisionItem → Nat → DigestPair → Except Fault (DigestPair × List VisionItem × Nat)
  | [], nextEnd, digest => .ok (digest, [], nextEnd)
  | item :: rest, nextEnd, digest =>
    if nextEnd = frontier then
      match rest with
      | [] => .ok (mixVisionItem digest item, [], nextEnd)
      | next :: _ => do
        let nextEnd ← checkedVisionEnd next promptTokens
        if nextEnd < frontier then
          .error (.invalidArgument "Vision shortlist items are not prefix ordered")
        else mixVisionItems promptTokens frontier rest nextEnd (mixVisionItem digest item)
    else .ok (digest, item :: rest, nextEnd)

namespace PreparedPromptData

/-- Both classes refuse a prompt whose metadata does not fit its tokens. -/
def WellShaped (p : PreparedPromptData) : Prop :=
  p.tokenTypes.length = p.tokenIds.length ∧ p.positions.length = 3 * p.tokenIds.length
  deriving Decidable

def row (p : PreparedPromptData) (index : Nat) : Row :=
  { token := p.tokenIds.getD index 0
    tokenType := p.tokenTypes.getD index 0
    positions := (p.positions.getD index 0, p.positions.getD (p.tokenIds.length + index) 0,
      p.positions.getD (2 * p.tokenIds.length + index) 0) }

/-- `position_axis`. -/
def axis (p : PreparedPromptData) (i : Nat) : List Int32 :=
  (p.positions.drop (i * p.tokenIds.length)).take p.tokenIds.length

end PreparedPromptData

/-- The check of the frontiers before the digests are built. -/
def checkRewrites (tokens : Nat) : List Nat → Nat → Except Fault Unit
  | [], _ => .ok ()
  | frontier :: rest, previous =>
    if frontier = 0 ∨ frontier > tokens ∨ frontier ≤ previous then
      .error (.invalidArgument
        "rewrite execution frontiers must be ordered unique prompt positions")
    else checkRewrites tokens rest frontier

/-- The variables of the loop of `assign`. -/
structure Assigning where
  digests : List DigestPair
  rewrites : List Nat
  items : List VisionItem
  nextVisionEnd : Nat

def assignStep (p : PreparedPromptData) (index : Nat) (a : Assigning) : Except Fault Assigning := do
  let (digests, rewrites) := appendDigest a.digests (p.row index) a.rewrites
  let (last, items, nextVisionEnd) ← mixVisionItems p.tokenIds.length (index + 1) a.items
    a.nextVisionEnd (digests.getLast?.getD digestOffset)
  pure { digests := digests.dropLast ++ [last], rewrites, items, nextVisionEnd }

def assignLoop (p : PreparedPromptData) (start : Assigning) : Nat → Except Fault Assigning
  | 0 => pure start
  | n + 1 => do
    let a ← assignLoop p start n
    assignStep p n a

namespace PrefixShortlistDigests

/-- The end of the first item, when there is one. -/
def firstVisionEnd (p : PreparedPromptData) : Except Fault Nat :=
  match p.visionItems with
  | [] => .ok 0
  | item :: _ => checkedVisionEnd item p.tokenIds.length

def assign (p : PreparedPromptData) : Except Fault (List DigestPair) := do
  refuse (¬ p.WellShaped)
    (.invalidArgument "prepared prompt shortlist metadata has an invalid shape")
  checkRewrites p.tokenIds.length p.rewriteExecutionFrontiers 0
  -- `tokens == max()`: no vector is longer
  refuse (maxSize ≤ p.tokenIds.length)
    (.overflowError "prefix shortlist capacity overflows size_t")
  let firstEnd ← firstVisionEnd p
  let a ← assignLoop p
    { digests := [digestOffset]
      rewrites := p.rewriteExecutionFrontiers
      items := p.visionItems
      nextVisionEnd := firstEnd } p.tokenIds.length
  refuse (a.rewrites ≠ []) (.invalidArgument "rewrite execution frontier exceeds the prompt")
  refuse (a.items ≠ []) (.invalidArgument "Vision shortlist item exceeds the prompt")
  pure a.digests

def size (digests : List DigestPair) : Nat := digests.length - 1

end PrefixShortlistDigests

/-- The position of a generated token on every axis. -/
def generatedPosition (tooLong outside : String) (index : Nat) (ropeDelta : Int32) :
    Except Fault Int32 :=
  if index > 2147483647 then .error (.overflowError tooLong)
  else if (index : Int) + ropeDelta.toInt < -2147483648 ∨
      (index : Int) + ropeDelta.toInt > 2147483647 then .error (.overflowError outside)
  else .ok (Int32.ofInt ((index : Int) + ropeDelta.toInt))

namespace PrefixShortlistDigests

/-- The loop of `append_generated`. -/
def appendFrom (ropeDelta : Int32) :
    Nat → List Int32 → List DigestPair → Except Fault (List DigestPair)
  | _, [], digests => .ok digests
  | index, token :: rest, digests => do
    let value ← generatedPosition "generated shortlist position exceeds int32"
      "generated shortlist MRoPE position exceeds int32" index ropeDelta
    appendFrom ropeDelta (index + 1) rest
      (appendDigest digests { token, tokenType := 0, positions := (value, value, value) } []).1

variable (digests : List DigestPair)

def appendGenerated (tokens : List Int32) (ropeDelta : Int32) :
    Except Fault (List DigestPair) :=
  if digests = [] then
    .error (.logicError "generated shortlist append has no resident prefix")
  else if tokens.length > maxSize - size digests then
    .error (.overflowError "generated shortlist length overflows size_t")
  else appendFrom ropeDelta (size digests) tokens digests

def truncate (tokens : Nat) : Except Fault (List DigestPair) :=
  if digests = [] ∨ tokens > size digests then
    .error (.outOfRange "cannot extend prefix shortlist by truncation")
  else .ok (digests.take (tokens + 1))

def «at» (frontier : Nat) : Except Fault DigestPair :=
  if digests = [] ∨ frontier > size digests then
    .error (.outOfRange "prefix shortlist frontier exceeds resident identity")
  else .ok (digests.getD frontier digestOffset)

end PrefixShortlistDigests

/-! ## `ResidentPrefixIdentity` -/

structure ResidentPrefixIdentity where
  tokenTypes : List UInt8
  positions : List Int32 × List Int32 × List Int32
  visionItems : List VisionItem
  rewriteExecutionFrontiers : List Nat

namespace ResidentPrefixIdentity

variable (i : ResidentPrefixIdentity)

def size : Nat := i.tokenTypes.length

def assign (p : PreparedPromptData) : Except Fault ResidentPrefixIdentity :=
  if ¬ p.WellShaped then
    .error (.invalidArgument "prepared prompt identity metadata has an invalid shape")
  else .ok
    { tokenTypes := p.tokenTypes
      positions := (p.axis 0, p.axis 1, p.axis 2)
      visionItems := p.visionItems
      rewriteExecutionFrontiers := p.rewriteExecutionFrontiers }

/-- One generated token at the position. -/
def pushGenerated (value : Int32) : ResidentPrefixIdentity :=
  { i with
    tokenTypes := i.tokenTypes ++ [0]
    positions :=
      (i.positions.1 ++ [value], i.positions.2.1 ++ [value], i.positions.2.2 ++ [value]) }

/-- The loop of `append_generated`. -/
def appendFrom (ropeDelta : Int32) :
    Nat → Nat → ResidentPrefixIdentity → Except Fault ResidentPrefixIdentity
  | _, 0, i => .ok i
  | index, count + 1, i => do
    let value ← generatedPosition "generated prefix position exceeds int32"
      "generated MRoPE position exceeds int32" index ropeDelta
    appendFrom ropeDelta (index + 1) count (i.pushGenerated value)

def appendGenerated (count : Nat) (ropeDelta : Int32) :
    Except Fault ResidentPrefixIdentity :=
  if count > maxSize - i.size then
    .error (.overflowError "generated prefix identity length overflows size_t")
  else appendFrom ropeDelta i.size count i

def truncate (tokens : Nat) : Except Fault ResidentPrefixIdentity :=
  if tokens > i.size then
    .error (.outOfRange "cannot extend resident prefix identity by truncation")
  else
    match prefixItemCount i.visionItems tokens with
    | none => .error (.logicError "resident prefix truncation divides a Vision item")
    | some retained => .ok
      { tokenTypes := i.tokenTypes.take tokens
        positions :=
          (i.positions.1.take tokens, i.positions.2.1.take tokens, i.positions.2.2.take tokens)
        visionItems := i.visionItems.take retained
        rewriteExecutionFrontiers := upTo i.rewriteExecutionFrontiers tokens }

def «matches» (p : PreparedPromptData) (count : Nat) : Bool :=
  if count > p.tokenIds.length ∨ count > i.size ∨ ¬ p.WellShaped then false
  else if p.tokenTypes.take count ≠ i.tokenTypes.take count then false
  else if (p.axis 0).take count ≠ i.positions.1.take count ∨
      (p.axis 1).take count ≠ i.positions.2.1.take count ∨
      (p.axis 2).take count ≠ i.positions.2.2.take count then false
  else
    match prefixItemCount p.visionItems count, prefixItemCount i.visionItems count with
    | some incoming, some resident =>
      incoming = resident ∧ ((p.visionItems.take incoming).zip (i.visionItems.take incoming)).all
          (fun (a, b) => sameItem a b) ∧
        upTo p.rewriteExecutionFrontiers count = upTo i.rewriteExecutionFrontiers count
    | _, _ => false

end ResidentPrefixIdentity

def prefixMatches (p : PreparedPromptData) (residentTokens : List Int32)
    (residentIdentity : ResidentPrefixIdentity) (count : Nat) : Bool :=
  if count > p.tokenIds.length ∨ count > residentTokens.length then false
  else p.tokenIds.take count = residentTokens.take count ∧ residentIdentity.matches p count

/-! ## Resident histories -/

structure Resident where
  tokens : List Int32
  identity : ResidentPrefixIdentity
  digests : List DigestPair

/-- What a prompt, then generated tokens and truncations in any order, leave behind. -/
inductive History : Resident → Prop where
  | assign {p : PreparedPromptData} {i : ResidentPrefixIdentity} {d : List DigestPair}
      (hi : ResidentPrefixIdentity.assign p = .ok i)
      (hd : PrefixShortlistDigests.assign p = .ok d) : History ⟨p.tokenIds, i, d⟩
  | appendGenerated {r : Resident} (h : History r) (tokens : List Int32) (ropeDelta : Int32)
      {i : ResidentPrefixIdentity} {d : List DigestPair}
      (hi : r.identity.appendGenerated tokens.length ropeDelta = .ok i)
      (hd : PrefixShortlistDigests.appendGenerated r.digests tokens ropeDelta = .ok d) :
      History ⟨r.tokens ++ tokens, i, d⟩
  | truncate {r : Resident} (h : History r) (tokens : Nat)
      {i : ResidentPrefixIdentity} {d : List DigestPair}
      (hi : r.identity.truncate tokens = .ok i)
      (hd : PrefixShortlistDigests.truncate r.digests tokens = .ok d) :
      History ⟨r.tokens.take tokens, i, d⟩

end Ninfer.Qwen
