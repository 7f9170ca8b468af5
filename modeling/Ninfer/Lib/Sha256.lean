/-
  SHA-256 and HMAC as the standards FIPS 180-4 and FIPS 198-1 define them, on messages of whole
  bytes.

  The constants are the standard's own: the first 32 bits of the fractional parts of the square
  roots of the first 8 primes and of the cube roots of the first 64. Padding is the byte 0x80 (the
  bit 1 and seven of the zero bits), the fewest zero bytes that fill a block, and the length in
  bits as a 64-bit word. The standard is about messages of less than 2^64 bits.
-/
import Mathlib

namespace Lib.Sha256

/-! ## Words -/

def rotr (n x : UInt32) : UInt32 := x >>> n ||| x <<< (32 - n)

def ch (x y z : UInt32) : UInt32 := (x &&& y) ^^^ (~~~x &&& z)

def maj (x y z : UInt32) : UInt32 := (x &&& y) ^^^ (x &&& z) ^^^ (y &&& z)

variable (x : UInt32)

def bigSigma0 : UInt32 := rotr 2 x ^^^ rotr 13 x ^^^ rotr 22 x

def bigSigma1 : UInt32 := rotr 6 x ^^^ rotr 11 x ^^^ rotr 25 x

def smallSigma0 : UInt32 := rotr 7 x ^^^ rotr 18 x ^^^ x >>> 3

def smallSigma1 : UInt32 := rotr 17 x ^^^ rotr 19 x ^^^ x >>> 10

/-- The first 64 primes. A composite number below 18² has a factor below 18. -/
def primes : List Nat :=
  (List.range' 2 310).filter fun p => (List.range' 2 16).all fun d => p ≤ d || p % d != 0

/-- The first 32 bits of the fractional part of the `k`th root. -/
def rootWord (k p : Nat) : UInt32 := UInt32.ofNat (Nat.nthRoot k (p * 2 ^ (32 * k)))

def roundConstants : List UInt32 := primes.map (rootWord 3)

def be32 : List UInt8 :=
  [(x >>> 24).toUInt8, (x >>> 16).toUInt8, (x >>> 8).toUInt8, x.toUInt8]

def be64 (x : UInt64) : List UInt8 :=
  [56, 48, 40, 32, 24, 16, 8, 0].map fun shift : UInt64 => (x >>> shift).toUInt8

theorem be64_injective {x y : UInt64} (h : be64 x = be64 y) : x = y := by
  have hbyte : ∀ z shift : UInt64, (z >>> shift).toUInt8.toNat =
      z.toNat / 2 ^ (shift.toNat % 64) % 256 := fun z shift => by
    rw [UInt64.toNat_toUInt8, UInt64.toNat_shiftRight, Nat.shiftRight_eq_div_pow]
  simp only [be64, List.map_cons, List.map_nil, List.cons.injEq, ← UInt8.toNat_inj, hbyte] at h
  rw [← UInt64.toNat_inj]
  have hx := x.toNat_lt
  have hy := y.toNat_lt
  simp at h
  omega

/-! ## The hash -/

/-- The hash value, or the working variables. -/
structure Words where
  a : UInt32
  b : UInt32
  c : UInt32
  d : UInt32
  e : UInt32
  f : UInt32
  g : UInt32
  h : UInt32

def Words.toList (v : Words) : List UInt32 := [v.a, v.b, v.c, v.d, v.e, v.f, v.g, v.h]

def Words.add (v w : Words) : Words :=
  ⟨v.a + w.a, v.b + w.b, v.c + w.c, v.d + w.d, v.e + w.e, v.f + w.f, v.g + w.g, v.h + w.h⟩

def initial : Words :=
  let root (t : Nat) := rootWord 2 (primes.getD t 0)
  ⟨root 0, root 1, root 2, root 3, root 4, root 5, root 6, root 7⟩

/-- A word of a block. -/
def wordAt (block : List UInt8) (t : Nat) : UInt32 :=
  (block.getD (4 * t) 0).toUInt32 <<< 24 ||| (block.getD (4 * t + 1) 0).toUInt32 <<< 16 |||
    (block.getD (4 * t + 2) 0).toUInt32 <<< 8 ||| (block.getD (4 * t + 3) 0).toUInt32

/-- The message schedule. -/
def schedule (block : List UInt8) (t : Nat) : UInt32 :=
  if t < 16 then wordAt block t
  else smallSigma1 (schedule block (t - 2)) + schedule block (t - 7) +
    smallSigma0 (schedule block (t - 15)) + schedule block (t - 16)
termination_by t

def step (block : List UInt8) (v : Words) (t : Nat) : Words :=
  let t1 := v.h + bigSigma1 v.e + ch v.e v.f v.g + roundConstants.getD t 0 + schedule block t
  let t2 := bigSigma0 v.a + maj v.a v.b v.c
  ⟨t1 + t2, v.a, v.b, v.c, v.d + t1, v.e, v.f, v.g⟩

def compress (H : Words) (block : List UInt8) : Words :=
  H.add ((List.range 64).foldl (step block) H)

/-- The first `n` blocks of a padded message. -/
def compressBlocks : Nat → Words → List UInt8 → Words
  | 0, H, _ => H
  | n + 1, H, m => compressBlocks n (compress H (m.take 64)) (m.drop 64)

/-- The padding of a message of the given length. -/
def padding (length : Nat) : List UInt8 :=
  0x80 :: List.replicate ((119 - length % 64) % 64) 0 ++ be64 (8 * length).toUInt64

def messageDigest (m : List UInt8) : List UInt8 :=
  let padded := m ++ padding m.length
  (compressBlocks (padded.length / 64) initial padded).toList.flatMap be32

theorem compressBlocks_add (n k : Nat) (H : Words) (m : List UInt8) : compressBlocks (n + k) H m =
    compressBlocks k (compressBlocks n H m) (m.drop (64 * n)) := by
  induction n generalizing H m with
  | zero => simp [compressBlocks]
  | succ n ih =>
    rw [Nat.add_right_comm, compressBlocks, ih, List.drop_drop, compressBlocks, Nat.mul_succ,
      Nat.add_comm 64]

theorem compressBlocks_append {n : Nat} {m : List UInt8} (h : 64 * n ≤ m.length) (H : Words)
    (rest : List UInt8) : compressBlocks n H (m ++ rest) = compressBlocks n H m := by
  induction n generalizing H m with
  | zero => rfl
  | succ n ih =>
    rw [compressBlocks, compressBlocks, List.take_append_of_le_length (by omega),
      List.drop_append_of_le_length (by omega), ih (by rw [List.length_drop]; omega)]

theorem length_messageDigest (m : List UInt8) : (messageDigest m).length = 32 := rfl

/-! ## HMAC -/

/-- The key as a block; a long key is hashed first. -/
def blockKey (key : List UInt8) : List UInt8 :=
  let key := if key.length ≤ 64 then key else messageDigest key
  key ++ List.replicate (64 - key.length) 0

def hmac (key m : List UInt8) : List UInt8 :=
  messageDigest ((blockKey key).map (· ^^^ 0x5c) ++
    messageDigest ((blockKey key).map (· ^^^ 0x36) ++ m))

theorem length_hmac (key m : List UInt8) : (hmac key m).length = 32 := length_messageDigest _

end Lib.Sha256
