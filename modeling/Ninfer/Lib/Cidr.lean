/-
  Blocks of network addresses in prefix notation, and addresses read from their bytes.

  An address of `w` bits is a number; `base/len` is the block of the addresses that agree with
  `base` in their first `len` bits. An address in memory is a list of bytes, the most significant
  one first, so that a prefix of whole bytes is a prefix of that list.
-/
import Mathlib

namespace Lib

/-! ## Big-endian numbers -/

/-- The number that is written with these bytes, the most significant one first. -/
def bigEndian (bytes : List UInt8) : Nat :=
  bytes.foldl (fun value b => value * 256 + b.toNat) 0

theorem bigEndian_nil : bigEndian [] = 0 := rfl

theorem bigEndian_concat (bytes : List UInt8) (b : UInt8) :
    bigEndian (bytes ++ [b]) = bigEndian bytes * 256 + b.toNat := by
  unfold bigEndian
  rw [List.foldl_append]
  rfl

theorem bigEndian_lt (bytes : List UInt8) : bigEndian bytes < 256 ^ bytes.length := by
  induction bytes using List.reverseRecOn with
  | nil => exact Nat.one_pos
  | append_singleton bytes b ih =>
    have hb := b.toNat_lt
    rw [bigEndian_concat, List.length_append, List.length_singleton, Nat.pow_succ]
    omega

/-- Leaving out the last bytes divides the number. -/
theorem bigEndian_append_div (xs ys : List UInt8) :
    bigEndian (xs ++ ys) / 256 ^ ys.length = bigEndian xs := by
  induction ys using List.reverseRecOn with
  | nil => rw [List.append_nil, List.length_nil, Nat.pow_zero, Nat.div_one]
  | append_singleton ys b ih =>
    have hb := b.toNat_lt
    rw [← List.append_assoc, bigEndian_concat, List.length_append, List.length_singleton,
      Nat.pow_succ, Nat.mul_comm (256 ^ _), ← Nat.div_div_eq_div_mul,
      show (bigEndian (xs ++ ys) * 256 + b.toNat) / 256 = bigEndian (xs ++ ys) by omega, ih]

theorem bigEndian_eq_zero {bytes : List UInt8} : bigEndian bytes = 0 ↔ ∀ b ∈ bytes, b = 0 := by
  induction bytes using List.reverseRecOn with
  | nil => simp [bigEndian_nil]
  | append_singleton bytes b ih =>
    have hb : b.toNat = 0 ↔ b = 0 := UInt8.toNat_inj (b := 0)
    rw [bigEndian_concat, List.forall_mem_append, ← ih, List.forall_mem_singleton, ← hb]
    omega

/-! ## Blocks -/

/-- The addresses of `w` bits that begin with the first `len` bits of `base`. -/
structure Cidr (w : Nat) where
  base : Nat
  len : Nat
  deriving DecidableEq

namespace Cidr

variable {w : Nat}

def Contains (c : Cidr w) (address : Nat) : Prop :=
  address / 2 ^ (w - c.len) = c.base / 2 ^ (w - c.len)

instance (c : Cidr w) : DecidablePred c.Contains := fun _ => inferInstanceAs (Decidable (_ = _))

/-- `b0.b1.b2.b3/len`. -/
def dotted (b0 b1 b2 b3 : UInt8) (len : Nat) : Cidr 32 :=
  { base := bigEndian [b0, b1, b2, b3], len }

end Cidr

end Lib
