/-
  The features of a prefill that the cost model prices (`make_prefill_work`,
  `runtime/contract/types.h`).

  The function has two bodies, one with the intrinsics of MSVC and one with 128-bit integers. All
  words are natural numbers below `2^64`; a sum or shift that the source takes in one word is taken
  modulo `2^64`, and the two words of `_umul128` are the quotient and the remainder of the product.
-/
import Ninfer.Core.PageLayout
import Ninfer.Resources.Contract

namespace Ninfer.Engine

open Resources (PrefillWork)

/-- The two bodies of the wide arithmetic. -/
inductive Build where
  | msvc
  | wide

/-- The largest `unsigned __int128`. -/
def maxU128 : Nat := 2 ^ 128 - 1

def attentionPairs : Build → Nat → Nat → Nat
  | .msvc, prefixTokens, suffixTokens =>
    let linear := prefixTokens * suffixTokens
    let tri := suffixTokens * ((suffixTokens + 1) % 2 ^ 64)
    let triangular := tri / 2 ^ 64 * 2 ^ 63 % 2 ^ 64 ||| tri % 2 ^ 64 / 2
    if linear / 2 ^ 64 > 0 ∨ tri / 2 ^ 64 / 2 > 0 then maxU64
    else if linear % 2 ^ 64 > maxU64 - triangular then maxU64
    else linear % 2 ^ 64 + triangular
  | .wide, prefixTokens, suffixTokens =>
    let linear := prefixTokens * suffixTokens
    let triangular := suffixTokens * (suffixTokens + 1) / 2
    let attention := if triangular > maxU128 - linear then maxU128 else linear + triangular
    if attention > maxU64 then maxU64 else attention

def makePrefillWork (build : Build) (prefixTokens suffixTokens visionItems visionPatches
    prefillChunk : Nat) : PrefillWork where
  chunks := if suffixTokens = 0 ∨ prefillChunk = 0 then 0
    else 1 + (suffixTokens - 1) / prefillChunk
  tokens := suffixTokens
  visionItems
  visionPatches
  attentionPairs := attentionPairs build prefixTokens suffixTokens

/-- The pairs are `prefix * suffix + suffix * (suffix + 1) / 2`, cut off at the largest word. -/
def exactAttentionPairs (prefixTokens suffixTokens : Nat) : Nat :=
  min (prefixTokens * suffixTokens + suffixTokens * (suffixTokens + 1) / 2) maxU64

theorem attentionPairs_wide {p s : Nat} (hp : p ≤ maxU64) (hs : s ≤ maxU64) :
    attentionPairs .wide p s = exactAttentionPairs p s := by
  have hlinear : p * s ≤ maxU128 :=
    Nat.le_trans (Nat.mul_le_mul hp hs) (by decide)
  simp only [attentionPairs, exactAttentionPairs]
  generalize p * s = linear at *
  generalize s * (s + 1) / 2 = triangular
  unfold maxU128 maxU64 at *
  split_ifs <;> omega

/-- The shifts of the MSVC body halve the product. -/
theorem shifted_halves {n : Nat} (h : n < 2 ^ 65) :
    n / 2 ^ 64 * 2 ^ 63 % 2 ^ 64 ||| n % 2 ^ 64 / 2 = n / 2 := by
  have hhigh : n / 2 ^ 64 * 2 ^ 63 % 2 ^ 64 = 2 ^ 63 * (n / 2 ^ 64) := by omega
  rw [hhigh, ← Nat.two_pow_add_eq_or_of_lt (by omega)]
  omega

theorem attentionPairs_msvc {p s : Nat} (hs : s < maxU64 ∨ s = maxU64 ∧ 0 < p) :
    attentionPairs .msvc p s = exactAttentionPairs p s := by
  simp only [attentionPairs, exactAttentionPairs]
  rcases hs with hs | ⟨rfl, hp⟩
  · have hnext : (s + 1) % 2 ^ 64 = s + 1 := Nat.mod_eq_of_lt (by unfold maxU64 at hs; omega)
    rw [hnext]
    generalize p * s = linear
    generalize s * (s + 1) = tri
    unfold maxU64
    split_ifs with hbig
    · omega
    all_goals
      rw [shifted_halves (by omega)] at *
      omega
  · -- `suffix_tokens + 1` wraps, and the linear part is all that is left.
    have hlinear : maxU64 ≤ p * maxU64 := Nat.le_mul_of_pos_left _ hp
    have htri : (maxU64 + 1) % 2 ^ 64 = 0 := by decide
    rw [htri]
    simp only [Nat.mul_zero, Nat.zero_div, Nat.zero_mod, Nat.zero_mul, Nat.or_self]
    revert hlinear
    generalize p * maxU64 = linear
    intro hlinear
    split_ifs <;> omega

/-- The two bodies agree exactly but for a suffix of `2^64 - 1` tokens from the start. -/
theorem makePrefillWork_agrees_iff {p s : Nat} (hp : p ≤ maxU64) (hs : s ≤ maxU64)
    (items patches chunk : Nat) :
    makePrefillWork .msvc p s items patches chunk =
      makePrefillWork .wide p s items patches chunk ↔ s < maxU64 ∨ 0 < p := by
  constructor
  · intro h
    by_contra hout
    obtain ⟨rfl, rfl⟩ : s = maxU64 ∧ p = 0 := by omega
    have hpairs : attentionPairs .msvc 0 maxU64 = attentionPairs .wide 0 maxU64 :=
      congrArg PrefillWork.attentionPairs h
    revert hpairs
    decide
  · intro h
    have hpairs := (attentionPairs_msvc (p := p) (by omega)).trans (attentionPairs_wide hp hs).symm
    rw [makePrefillWork, hpairs]
    rfl

end Ninfer.Engine
