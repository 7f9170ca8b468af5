/-
  The signer of thinking blocks (`anthropic_thinking_signature.cpp`): its own SHA-256, the keyed
  digest of a block, and the text it is written as. It is compared with the standards in
  `Lib.Sha256`.

  Strings are lists of bytes. A key is 32 bytes, and a block index is a `std::size_t`.
-/
import Ninfer.Lib.Fallible
import Ninfer.Lib.Sha256

namespace Ninfer.Serve

open Lib Lib.Sha256 Function

/-! ## The hash -/

def kRound : List UInt32 := [
  0x428a2f98, 0x71374491, 0xb5c0fbcf, 0xe9b5dba5, 0x3956c25b, 0x59f111f1, 0x923f82a4, 0xab1c5ed5,
  0xd807aa98, 0x12835b01, 0x243185be, 0x550c7dc3, 0x72be5d74, 0x80deb1fe, 0x9bdc06a7, 0xc19bf174,
  0xe49b69c1, 0xefbe4786, 0x0fc19dc6, 0x240ca1cc, 0x2de92c6f, 0x4a7484aa, 0x5cb0a9dc, 0x76f988da,
  0x983e5152, 0xa831c66d, 0xb00327c8, 0xbf597fc7, 0xc6e00bf3, 0xd5a79147, 0x06ca6351, 0x14292967,
  0x27b70a85, 0x2e1b2138, 0x4d2c6dfc, 0x53380d13, 0x650a7354, 0x766a0abb, 0x81c2c92e, 0x92722c85,
  0xa2bfe8a1, 0xa81a664b, 0xc24b8b70, 0xc76c51a3, 0xd192e819, 0xd6990624, 0xf40e3585, 0x106aa070,
  0x19a4c116, 0x1e376c08, 0x2748774c, 0x34b0bcb5, 0x391c0cb3, 0x4ed8aa4a, 0x5b9cca4f, 0x682e6ff3,
  0x748f82ee, 0x78a5636f, 0x84c87814, 0x8cc70208, 0x90befffa, 0xa4506ceb, 0xbef9a3f7, 0xc67178f2]

def loadBe32 (bytes : List UInt8) : UInt32 :=
  (bytes.getD 0 0).toUInt32 <<< 24 ||| (bytes.getD 1 0).toUInt32 <<< 16 |||
    (bytes.getD 2 0).toUInt32 <<< 8 ||| (bytes.getD 3 0).toUInt32

def storeBe32 (value : UInt32) : List UInt8 :=
  [(value >>> 24).toUInt8, (value >>> 16).toUInt8, (value >>> 8).toUInt8, value.toUInt8]

/-- One pass of the loop that extends the words of a block. -/
def extendWords (words : Nat → UInt32) (index : Nat) : Nat → UInt32 :=
  let s0 :=
    rotr 7 (words (index - 15)) ^^^ rotr 18 (words (index - 15)) ^^^ words (index - 15) >>> 3
  let s1 := rotr 17 (words (index - 2)) ^^^ rotr 19 (words (index - 2)) ^^^ words (index - 2) >>> 10
  update words index (words (index - 16) + s0 + words (index - 7) + s1)

def blockWords (block : List UInt8) : Nat → UInt32 :=
  (List.range' 16 48).foldl extendWords fun index =>
    if index < 16 then loadBe32 (block.drop (4 * index)) else 0

/-- One round over the working variables. -/
def processRound (words : Nat → UInt32) (v : Words) (index : Nat) : Words :=
  let sum1 := rotr 6 v.e ^^^ rotr 11 v.e ^^^ rotr 25 v.e
  let choose := (v.e &&& v.f) ^^^ (~~~v.e &&& v.g)
  let t1 := v.h + sum1 + choose + kRound.getD index 0 + words index
  let sum0 := rotr 2 v.a ^^^ rotr 13 v.a ^^^ rotr 22 v.a
  let majority := (v.a &&& v.b) ^^^ (v.a &&& v.c) ^^^ (v.b &&& v.c)
  let t2 := sum0 + majority
  { h := v.g, g := v.f, f := v.e, e := v.d + t1, d := v.c, c := v.b, b := v.a, a := t1 + t2 }

/-- A block is the 64 bytes at the pointer. -/
def processBlock (state : Words) (block : List UInt8) : Words :=
  state.add ((List.range 64).foldl (processRound (blockWords block)) state)

def initialState : Words :=
  ⟨0x6a09e667, 0xbb67ae85, 0x3c6ef372, 0xa54ff53a, 0x510e527f, 0x9b05688c, 0x1f83d9ab, 0x5be0cd19⟩

/-- The loop over whole blocks, with the bytes that remain. -/
def processBlocks (state : Words) (input : List UInt8) : Words × List UInt8 :=
  if 64 ≤ input.length then processBlocks (processBlock state (input.take 64)) (input.drop 64)
  else (state, input)
termination_by input.length

/-- The tail of 128 bytes: what remains, the byte 0x80 and the length at the end of its first or
    second half. -/
def tail (remaining : List UInt8) (tailSize : Nat) (bits : UInt64) : List UInt8 :=
  (List.range 8).foldl
    (fun tail index => tail.set (tailSize - 1 - index) (bits >>> (8 * index.toUInt64)).toUInt8)
    ((remaining ++ List.replicate (128 - remaining.length) 0).set remaining.length 0x80)

def sha256 (input : List UInt8) : Except Fault (List UInt8) :=
  if input.length > (2 ^ 64 - 1) / 8 then
    .error (.invalidArgument "Thinking signature payload is too large")
  else
    let (state, remaining) := processBlocks initialState input
    let tailSize := if remaining.length < 56 then 64 else 128
    let tail := tail remaining tailSize (input.length.toUInt64 * 8)
    let state := processBlock state (tail.take 64)
    let state := if tailSize = 128 then processBlock state (tail.drop 64) else state
    .ok (state.toList.flatMap storeBe32)

/-! ## The keyed digest -/

def bytesOf (s : String) : List UInt8 := s.toList.map fun c => c.toNat.toUInt8

def kSignaturePrefix : List UInt8 := bytesOf "sig_ninfer_v1_"

def kDomain : List UInt8 := bytesOf "ninfer.anthropic.thinking.v1"

/-- `append_be64`. -/
def appendBe64 (output : List UInt8) (value : UInt64) : List UInt8 :=
  [56, 48, 40, 32, 24, 16, 8, 0].foldl
    (fun output (shift : UInt64) => output ++ [(value >>> shift).toUInt8]) output

variable (key : Vector UInt8 32)

/-- The key as 64 bytes, each mixed with a pad byte. -/
def padKey (mask : UInt8) : List UInt8 :=
  (List.range 64).map fun index => (if index < 32 then key.toList.getD index 0 else 0) ^^^ mask

variable (thinking : List UInt8)

variable (blockIndex : UInt64)

/-- What is authenticated: domain, zero byte, index, length and text. -/
def thinkingMessage : List UInt8 :=
  appendBe64 (appendBe64 (kDomain ++ [0]) blockIndex) thinking.length.toUInt64 ++ thinking

def thinkingMac :
    Except Fault (List UInt8) := do
  let innerDigest ← sha256 (padKey key 0x36 ++ thinkingMessage thinking blockIndex)
  sha256 (padKey key 0x5c ++ innerDigest)

/-! ## Signatures -/

def kHex : List UInt8 := bytesOf "0123456789abcdef"

def hexDigest (digest : List UInt8) : List UInt8 :=
  digest.flatMap fun b : UInt8 => [kHex.getD (b >>> 4).toNat 0, kHex.getD (b &&& 0x0f).toNat 0]

def hexValue (value : UInt8) : Option UInt8 :=
  if 48 ≤ value ∧ value ≤ 57 then some (value - 48)
  else if 97 ≤ value ∧ value ≤ 102 then some (value - 97 + 10)
  else none

def decodeBytes : List UInt8 → Option (List UInt8)
  | high :: low :: rest => do
    let high ← hexValue high
    let low ← hexValue low
    let digest ← decodeBytes rest
    return (high <<< 4 ||| low) :: digest
  | _ => some []

def decodeDigest (encoded : List UInt8) : Option (List UInt8) :=
  if encoded.length ≠ 64 then none else decodeBytes encoded

def sign :
    Except Fault (List UInt8) := do
  let digest ← thinkingMac key thinking blockIndex
  return kSignaturePrefix ++ hexDigest digest

def verify (signature : List UInt8) : Except Fault Bool :=
  if kSignaturePrefix.isPrefixOf signature then
    match decodeDigest (signature.drop kSignaturePrefix.length) with
    | none => .ok false
    | some supplied => do
      let expected ← thinkingMac key thinking blockIndex
      let difference := (List.zipWith (· ^^^ ·) expected supplied).foldl (· ||| ·) 0
      return difference == 0
  else .ok false

/-! ## The hash is the standard's -/

theorem kRound_eq : kRound = roundConstants := by decide +kernel

theorem initialState_eq : initialState = initial := by
  simp only [initialState, initial, Words.mk.injEq]
  decide +kernel

theorem extendWords_eq {block : List UInt8} {words : Nat → UInt32} {index : Nat} (hi : 16 ≤ index)
    (h : ∀ t < index, words t = schedule block t) :
    ∀ t < index + 1, extendWords words index t = schedule block t := by
  intro t ht
  unfold extendWords
  rcases eq_or_ne t index with rfl | hne
  · rw [update_self, schedule, if_neg (by omega), h _ (by omega), h _ (by omega), h _ (by omega),
      h _ (by omega), smallSigma0, smallSigma1]
    ac_rfl
  · rw [update_of_ne hne, h t (by omega)]

theorem blockWords_eq (block : List UInt8) : ∀ t < 64, blockWords block t = schedule block t := by
  have hloop : ∀ n, ∀ t < 16 + n, (List.range' 16 n).foldl extendWords (fun index =>
      if index < 16 then loadBe32 (block.drop (4 * index)) else 0) t = schedule block t := by
    intro n
    induction n with
    | zero =>
      intro t ht
      rw [schedule, if_pos ht]
      simp [loadBe32, wordAt, ht, List.getElem?_drop]
    | succ n ih =>
      intro t ht
      rw [List.range'_concat, Nat.one_mul, List.foldl_append]
      exact extendWords_eq (by omega) ih t ht
  exact hloop 48

theorem processBlock_eq (state : Words) (block : List UInt8) :
    processBlock state block = compress state block := by
  refine congrArg state.add (List.foldl_ext _ _ state fun v t ht => ?_)
  have ht := List.mem_range.mp ht
  unfold processRound step
  rw [kRound_eq, blockWords_eq block t ht]
  rfl

theorem processBlocks_eq (state : Words) (input : List UInt8) :
    processBlocks state input = (compressBlocks (input.length / 64) state input,
      input.drop (64 * (input.length / 64))) := by
  fun_induction processBlocks state input with
  | case1 state input h ih =>
    have hn : input.length / 64 = (input.length - 64) / 64 + 1 := by omega
    rw [ih, List.length_drop, hn, compressBlocks, processBlock_eq, List.drop_drop, Nat.mul_succ,
      Nat.add_comm 64]
  | case2 state input h =>
    rw [Nat.div_eq_of_lt (by omega)]
    simp [compressBlocks]

theorem foldl_set_end {α : Type} {l : List α} {e n : Nat} (f : Nat → α) (hn : n ≤ e)
    (he : e ≤ l.length) : (List.range n).foldl (fun l i => l.set (e - 1 - i) (f i)) l =
      l.take (e - n) ++ ((List.range n).reverse.map f ++ l.drop e) := by
  induction n with
  | zero => simp
  | succ n ih =>
    rw [List.range_succ, List.foldl_append, ih (by omega), List.foldl_cons, List.foldl_nil,
      List.set_append_left _ _ (by rw [List.length_take]; omega), List.set_eq_take_append_cons_drop,
      if_pos (by rw [List.length_take]; omega), List.take_take, List.drop_eq_nil_of_le
        (by rw [List.length_take]; omega), Nat.min_eq_left (by omega), List.reverse_concat,
      List.map_cons, List.append_assoc, show e - 1 - n = e - (n + 1) by omega]
    rfl

/-- The part of the tail that is hashed ends in the padding of the whole input. -/
theorem take_tail {remaining : List UInt8} {length tailSize : Nat}
    (hr : remaining.length = length % 64)
    (hs : tailSize = if remaining.length < 56 then 64 else 128) :
    (tail remaining tailSize (8 * length).toUInt64).take tailSize =
      remaining ++ padding length := by
  have hlt := Nat.mod_lt length (show 0 < 64 by omega)
  have hsize : tailSize = remaining.length + 1 + (119 - length % 64) % 64 + 8 := by
    split at hs <;> omega
  have hstart : (remaining ++ List.replicate (128 - remaining.length) (0 : UInt8)).set
      remaining.length 0x80 = remaining ++ 0x80 :: List.replicate (127 - remaining.length) 0 := by
    rw [List.set_append_right _ _ (Nat.le_refl _), Nat.sub_self,
      show 128 - remaining.length = 127 - remaining.length + 1 by omega, List.replicate_succ,
      List.set_cons_zero]
  have hbody : (remaining ++ 0x80 :: List.replicate (127 - remaining.length) (0 : UInt8)).take
      (tailSize - 8) = remaining ++ 0x80 :: List.replicate ((119 - length % 64) % 64) 0 := by
    rw [hsize, Nat.add_sub_cancel, Nat.add_assoc, List.take_length_add_append, Nat.add_comm 1,
      List.take_succ_cons, List.take_replicate, Nat.min_eq_left (by omega)]
  unfold tail
  rw [hstart, foldl_set_end _ (by omega) (by simp; split at hs <;> omega), hbody,
    ← List.append_assoc, List.take_left' (by simp; omega)]
  simp [padding, be64, List.range_succ]

theorem length_tail {remaining : List UInt8} (hr : remaining.length ≤ 128) (tailSize : Nat)
    (bits : UInt64) : (tail remaining tailSize bits).length = 128 := by
  simp [tail, List.range_succ]
  omega

theorem sha256_eq (input : List UInt8) : sha256 input =
    if input.length * 8 < 2 ^ 64 then .ok (messageDigest input)
    else .error (.invalidArgument "Thinking signature payload is too large") := by
  unfold sha256
  by_cases hlen : input.length * 8 < 2 ^ 64
  · rw [if_neg (by omega), if_pos hlen, processBlocks_eq, initialState_eq]
    set remaining := input.drop (64 * (input.length / 64)) with hdef
    have hr : remaining.length = input.length % 64 := by rw [hdef, List.length_drop]; omega
    have htail := take_tail hr rfl
    have hsize : (remaining ++ padding input.length).length % 64 = 0 := by
      rw [← htail, List.length_take, length_tail (by omega)]; split <;> rfl
    have hpadded : (input ++ padding input.length).length =
        64 * (input.length / 64) + (remaining ++ padding input.length).length := by
      rw [List.length_append, List.length_append]; omega
    have hblocks : compressBlocks ((input ++ padding input.length).length / 64) initial
        (input ++ padding input.length) =
        compressBlocks ((remaining ++ padding input.length).length / 64)
          (compressBlocks (input.length / 64) initial input)
          (remaining ++ padding input.length) := by
      rw [hpadded, Nat.mul_add_div (by omega), compressBlocks_add,
        compressBlocks_append (by omega), List.drop_append_of_le_length (by omega)]
    rw [messageDigest]
    rw [hblocks, ← htail, List.length_take, length_tail (by omega)]
    have hbits : input.length.toUInt64 * 8 = (8 * input.length).toUInt64 := by
      rw [Nat.mul_comm]; exact (UInt64.ofNat_mul _ _).symm
    simp only [hbits, processBlock_eq]
    by_cases h56 : remaining.length < 56
    · simp [h56, compressBlocks, List.take_take]
      rfl
    · simp only [if_neg h56]
      rw [List.take_of_length_le (i := 128) (Nat.le_of_eq (length_tail (by omega) _ _))]
      simp only [Nat.min_self, compressBlocks, if_true]
      rw [List.take_of_length_le (l := List.drop _ _)
        (Nat.le_of_eq (by rw [List.length_drop, length_tail (by omega)]))]
      rfl
  · rw [if_pos (by omega), if_neg hlen]

/-! ## The keyed digest is the standard's -/

theorem appendBe64_eq (output : List UInt8) (value : UInt64) :
    appendBe64 output value = output ++ be64 value := by
  simp [appendBe64, be64]

theorem thinkingMessage_eq :
    thinkingMessage thinking blockIndex =
      kDomain ++ [0] ++ be64 blockIndex ++ be64 thinking.length.toUInt64 ++ thinking := by
  rw [thinkingMessage, appendBe64_eq, appendBe64_eq]

theorem thinkingMessage_injective :
    Injective fun p : UInt64 × List UInt8 => thinkingMessage p.2 p.1 := by
  rintro ⟨i, t⟩ ⟨i', t'⟩ h
  simp only [thinkingMessage_eq, List.append_assoc, List.append_cancel_left_eq] at h
  obtain ⟨hi, h⟩ := List.append_inj h rfl
  obtain ⟨_, ht⟩ := List.append_inj h rfl
  rw [be64_injective hi, ht]

theorem padKey_eq (mask : UInt8) :
    padKey key mask = (blockKey key.toList).map (· ^^^ mask) := by
  have hlen : key.toList.length = 32 := Vector.length_toList
  unfold padKey blockKey
  rw [if_pos (by omega)]
  refine List.ext_getElem (by simp [hlen]) fun i h1 h2 => ?_
  rw [List.getElem_map, List.getElem_map, List.getElem_range, List.getElem_append]
  by_cases hi : i < 32
  · rw [if_pos hi, dif_pos (by omega), List.getD_eq_getElem?_getD,
      List.getElem?_eq_getElem (by omega), Option.getD_some]
  · rw [if_neg hi, dif_neg (by omega), List.getElem_replicate]

theorem thinkingMac_eq :
    thinkingMac key thinking blockIndex =
      if (64 + (thinkingMessage thinking blockIndex).length) * 8 < 2 ^ 64 then
        .ok (hmac key.toList (thinkingMessage thinking blockIndex))
      else .error (.invalidArgument "Thinking signature payload is too large") := by
  have hpad : ∀ mask, (padKey key mask).length = 64 := fun mask => by simp [padKey]
  unfold thinkingMac
  rw [sha256_eq, List.length_append, hpad]
  split
  · simp only [bind, Except.bind]
    rw [sha256_eq, if_pos (by rw [List.length_append, hpad, length_messageDigest]; omega), hmac,
      padKey_eq, padKey_eq]
  · rfl

/-! ## Hex -/

theorem hexValue_eq_some {c n : UInt8} :
    hexValue c = some n ↔ n < 16 ∧ c = kHex.getD n.toNat 0 := by
  have hdecode : ∀ i < 256, (hexValue (UInt8.ofNat i)).all fun n : UInt8 =>
      decide (n < 16 ∧ UInt8.ofNat i = kHex.getD n.toNat 0) := by decide +kernel
  have hencode : ∀ i < 16, hexValue (kHex.getD i 0) = some (UInt8.ofNat i) := by decide +kernel
  constructor
  · intro h
    have := hdecode c.toNat c.toNat_lt
    rw [UInt8.ofNat_toNat, h] at this
    simpa using this
  · rintro ⟨hn, rfl⟩
    rw [hencode _ (UInt8.lt_iff_toNat_lt.mp hn), UInt8.ofNat_toNat]

/-- A byte is its two nibbles. -/
theorem nibbles_eq {high low b : UInt8} (hh : high < 16) (hl : low < 16) :
    high <<< 4 ||| low = b ↔ high = b >>> 4 ∧ low = b &&& 0x0f := by
  have hsplit : ∀ i < 16, ∀ j < 16, (UInt8.ofNat i <<< 4 ||| UInt8.ofNat j) >>> 4 = UInt8.ofNat i ∧
      (UInt8.ofNat i <<< 4 ||| UInt8.ofNat j) &&& 0x0f = UInt8.ofNat j := by decide +kernel
  have hjoin : ∀ i < 256,
      UInt8.ofNat i >>> 4 <<< 4 ||| (UInt8.ofNat i &&& 0x0f) = UInt8.ofNat i := by decide +kernel
  constructor
  · rintro rfl
    have := hsplit _ (UInt8.lt_iff_toNat_lt.mp hh) _ (UInt8.lt_iff_toNat_lt.mp hl)
    simp only [UInt8.ofNat_toNat] at this
    exact ⟨this.1.symm, this.2.symm⟩
  · rintro ⟨rfl, rfl⟩
    have := hjoin _ b.toNat_lt
    rwa [UInt8.ofNat_toNat] at this

theorem nibbles_lt (b : UInt8) : b >>> 4 < 16 ∧ b &&& 0x0f < 16 := by
  have hlt : ∀ i < 256, UInt8.ofNat i >>> 4 < 16 ∧ UInt8.ofNat i &&& 0x0f < 16 := by
    decide +kernel
  have := hlt _ b.toNat_lt
  rwa [UInt8.ofNat_toNat] at this

theorem decodeBytes_eq_some {encoded digest : List UInt8} (h : encoded.length % 2 = 0) :
    decodeBytes encoded = some digest ↔ encoded = hexDigest digest := by
  fun_induction decodeBytes encoded generalizing digest with
  | case1 high low rest ih =>
    have hrest : rest.length % 2 = 0 := by simpa [Nat.add_assoc] using h
    cases digest with
    | nil => simp [hexDigest, Option.bind_eq_some_iff]
    | cons b digest =>
      have hcons : hexDigest (b :: digest) = kHex.getD (b >>> 4).toNat 0 ::
          kHex.getD (b &&& 0x0f).toNat 0 :: hexDigest digest := rfl
      simp only [Option.bind_eq_bind, Option.bind_eq_some_iff, Option.pure_def, Option.some.injEq,
        List.cons.injEq, hexValue_eq_some, ih hrest, hcons]
      constructor
      · rintro ⟨h, ⟨hh, rfl⟩, l, ⟨hl, rfl⟩, _, hd, hb, rfl⟩
        obtain ⟨rfl, rfl⟩ := (nibbles_eq hh hl).mp hb
        exact ⟨rfl, rfl, hd⟩
      · rintro ⟨rfl, rfl, hd⟩
        have := nibbles_lt b
        exact ⟨_, ⟨this.1, rfl⟩, _, ⟨this.2, rfl⟩, _, hd,
          (nibbles_eq this.1 this.2).mpr ⟨rfl, rfl⟩, rfl⟩
  | case2 encoded hne =>
    match encoded, hne with
    | [], _ => cases digest <;> simp [hexDigest]
    | [_], _ => simp at h
    | _ :: _ :: _, hne => exact (hne _ _ _ rfl).elim

/-- Only equal bytes leave no difference. -/
theorem difference_eq_zero {expected supplied : List UInt8}
    (h : expected.length = supplied.length) (difference : UInt8) :
    (List.zipWith (· ^^^ ·) expected supplied).foldl (· ||| ·) difference = 0 ↔
      difference = 0 ∧ expected = supplied := by
  induction expected generalizing supplied difference with
  | nil =>
    cases List.length_eq_zero_iff.mp h.symm
    simp
  | cons e expected ih =>
    obtain ⟨s, supplied, rfl⟩ := List.exists_cons_of_length_eq_add_one h.symm
    rw [List.zipWith_cons_cons, List.foldl_cons, ih (by simpa using h), UInt8.or_eq_zero_iff,
      UInt8.xor_eq_zero_iff, List.cons.injEq, and_assoc]

theorem length_hexDigest (digest : List UInt8) : (hexDigest digest).length = 2 * digest.length := by
  simp [hexDigest, Nat.mul_comm]

theorem decodeDigest_eq_some {encoded digest : List UInt8} :
    decodeDigest encoded = some digest ↔ digest.length = 32 ∧ encoded = hexDigest digest := by
  unfold decodeDigest
  have := length_hexDigest digest
  split
  case isTrue h => exact ⟨nofun, fun ⟨hd, he⟩ => absurd (he ▸ this) (by omega)⟩
  case isFalse h =>
    rw [decodeBytes_eq_some (by omega)]
    exact ⟨fun he => ⟨by rw [he] at h; omega, he⟩, And.right⟩

theorem verify_iff (signature : List UInt8) : verify key thinking blockIndex signature = .ok true ↔
      sign key thinking blockIndex = .ok signature := by
  have hmac := thinkingMac_eq key thinking blockIndex
  unfold verify sign
  split at hmac <;> rw [hmac]
  · have hlen := length_hmac key.toList (thinkingMessage thinking blockIndex)
    constructor
    · intro hv
      split at hv
      · next hp =>
        obtain ⟨encoded, rfl⟩ := List.isPrefixOf_iff_prefix.mp hp
        rw [List.drop_left] at hv
        split at hv
        · cases hv
        · next supplied hd =>
          obtain ⟨hs, rfl⟩ := decodeDigest_eq_some.mp hd
          have hz := eq_of_beq (Except.ok.inj hv)
          rw [← ((difference_eq_zero (hlen.trans hs.symm) 0).mp hz).2]
          rfl
      · cases hv
    · intro hs
      cases hs
      rw [if_pos (List.isPrefixOf_iff_prefix.mpr (List.prefix_append _ _)), List.drop_left,
        decodeDigest_eq_some.mpr ⟨hlen, rfl⟩]
      exact congrArg Except.ok (beq_iff_eq.mpr ((difference_eq_zero rfl 0).mpr ⟨rfl, rfl⟩))
  · refine ⟨fun hv => ?_, nofun⟩
    split at hv
    · split at hv <;> cases hv
    · cases hv

/-- The signer computes HMAC-SHA256 over an unambiguous message, and takes back only what it
    gives out. -/
theorem thinking_signature_exact (key : Vector UInt8 32) :
    (∀ input, sha256 input = if input.length * 8 < 2 ^ 64 then .ok (messageDigest input)
      else .error (.invalidArgument "Thinking signature payload is too large")) ∧
    (∀ thinking blockIndex, thinkingMessage thinking blockIndex =
        kDomain ++ [0] ++ be64 blockIndex ++ be64 thinking.length.toUInt64 ++ thinking ∧
      sign key thinking blockIndex =
        if (64 + (thinkingMessage thinking blockIndex).length) * 8 < 2 ^ 64 then
          .ok (kSignaturePrefix ++
            hexDigest (hmac key.toList (thinkingMessage thinking blockIndex)))
        else .error (.invalidArgument "Thinking signature payload is too large")) ∧
    (Injective fun p : UInt64 × List UInt8 => thinkingMessage p.2 p.1) ∧
    ∀ thinking blockIndex signature, verify key thinking blockIndex signature = .ok true ↔
      sign key thinking blockIndex = .ok signature := by
  refine ⟨sha256_eq, fun thinking blockIndex => ⟨thinkingMessage_eq _ _, ?_⟩,
    thinkingMessage_injective, verify_iff key⟩
  unfold sign
  rw [thinkingMac_eq]
  split <;> rfl

end Ninfer.Serve
