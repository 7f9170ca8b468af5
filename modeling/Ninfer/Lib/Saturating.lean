/-
  Sums of unsigned 64-bit numbers that stop at the largest one and say so.

  An accumulator of such a sum is the sum itself, cut off at the largest number (`clamp`), so a
  whole fold of saturating additions is one clamp of the exact sum, and its flag is set exactly
  when the exact sum does not fit.
-/
import Mathlib

namespace Lib.Saturating

/-- The largest unsigned 64-bit number. -/
def top : UInt64 := 18446744073709551615

/-- The number `n`, cut off at the largest unsigned 64-bit number. -/
def clamp (n : Nat) : UInt64 := UInt64.ofNat (min n 18446744073709551615)

/-- Adds, and sets the flag where the sum does not fit. -/
def add (value increment : UInt64) (saturated : Bool) : UInt64 × Bool :=
  if increment > top - value then (top, true) else (value + increment, saturated)

/-- Adds a multiple, and sets the flag where the multiple or the sum does not fit. -/
def addWeighted (value increment : UInt64) (weight : UInt32) (saturated : Bool) : UInt64 × Bool :=
  if weight ≠ 0 ∧ increment > top / weight.toUInt64 then ((add value top saturated).1, true)
  else add value (increment * weight.toUInt64) saturated

def multiply (value multiplier : UInt64) : UInt64 :=
  if multiplier ≠ 0 ∧ value > top / multiplier then top else value * multiplier

/-- `a > b ? a - b : 0`. -/
theorem toNat_subOrZero (x y : UInt64) :
    (if y < x then x - y else 0).toNat = x.toNat - y.toNat := by
  split_ifs with h
  · exact UInt64.toNat_sub_of_le _ _ (UInt64.le_of_lt h)
  · rw [UInt64.lt_iff_toNat_lt] at h
    rw [UInt64.toNat_zero]
    omega

theorem toNat_clamp (n : Nat) : (clamp n).toNat = min n 18446744073709551615 :=
  UInt64.toNat_ofNat_of_lt' (by show _ < 2 ^ 64; omega)

theorem toNat_top : top.toNat = 18446744073709551615 := rfl

variable {value multiplier : UInt64}

theorem eq_clamp {n : Nat} (h : value.toNat = min n 18446744073709551615) : value = clamp n := by
  rw [← UInt64.toNat_inj, h, toNat_clamp]

/-- A saturating addition to a clamped sum is the clamped sum. -/
theorem add_clamp (n : Nat) (increment : UInt64) (saturated : Bool)
    (h : 18446744073709551615 < n → saturated = true) :
    add (clamp n) increment saturated = (clamp (n + increment.toNat),
        saturated || decide (18446744073709551615 < n + increment.toNat)) := by
  have hclamp := toNat_clamp n
  have hle : clamp n ≤ top := by
    rw [UInt64.le_iff_toNat_le, hclamp, toNat_top]
    omega
  have hroom : (top - clamp n).toNat = 18446744073709551615 - (clamp n).toNat := by
    rw [UInt64.toNat_sub_of_le _ _ hle, toNat_top]
  unfold add
  by_cases hfull : increment > top - clamp n
  · rw [if_pos hfull]
    rw [gt_iff_lt, UInt64.lt_iff_toNat_lt, hroom] at hfull
    have hbig : 18446744073709551615 < n + increment.toNat := by omega
    have htop : top = clamp (n + increment.toNat) := eq_clamp (by rw [toNat_top]; omega)
    rw [decide_eq_true hbig, Bool.or_true, htop]
  · rw [if_neg hfull]
    rw [gt_iff_lt, UInt64.lt_iff_toNat_lt, hroom] at hfull
    have hsum : (clamp n + increment).toNat = (clamp n).toNat + increment.toNat := by
      rw [UInt64.toNat_add]
      exact Nat.mod_eq_of_lt (by omega)
    have hnext : clamp n + increment = clamp (n + increment.toNat) :=
      eq_clamp (by rw [hsum]; omega)
    rw [hnext]
    by_cases hbig : 18446744073709551615 < n + increment.toNat
    · -- the sum was too large before already
      rw [h (by omega), Bool.true_or]
    · rw [decide_eq_false hbig, Bool.or_false]

theorem lt_div_iff_overflow (h : multiplier ≠ 0) :
    value > top / multiplier ↔ 18446744073709551615 < value.toNat * multiplier.toNat := by
  have hpos : 0 < multiplier.toNat := by
    rcases Nat.eq_zero_or_pos multiplier.toNat with hzero | hpos
    · exact absurd (UInt64.toNat_inj.mp hzero) h
    · exact hpos
  rw [gt_iff_lt, UInt64.lt_iff_toNat_lt, UInt64.toNat_div, toNat_top, Nat.div_lt_iff_lt_mul hpos]

theorem toNat_mul_of_not_overflow (h : ¬ (multiplier ≠ 0 ∧ value > top / multiplier)) :
    (value * multiplier).toNat = value.toNat * multiplier.toNat ∧
      value.toNat * multiplier.toNat ≤ 18446744073709551615 := by
  have hle : value.toNat * multiplier.toNat ≤ 18446744073709551615 := by
    by_cases hzero : multiplier = 0
    · rw [hzero, UInt64.toNat_zero, Nat.mul_zero]
      omega
    · exact Nat.not_lt.mp fun hlt => h ⟨hzero, (lt_div_iff_overflow hzero).mpr hlt⟩
  refine ⟨?_, hle⟩
  rw [UInt64.toNat_mul]
  exact Nat.mod_eq_of_lt (by omega)

theorem multiply_eq_clamp (value multiplier : UInt64) :
    multiply value multiplier = clamp (value.toNat * multiplier.toNat) := by
  unfold multiply
  split_ifs with h
  · have hbig := (lt_div_iff_overflow h.1).mp h.2
    exact eq_clamp (by rw [toNat_top]; omega)
  · obtain ⟨hmul, hle⟩ := toNat_mul_of_not_overflow h
    exact eq_clamp (by omega)

theorem addWeighted_clamp (n : Nat) (increment : UInt64) (weight : UInt32) (saturated : Bool)
    (h : 18446744073709551615 < n → saturated = true) :
    addWeighted (clamp n) increment weight saturated = (clamp (n + increment.toNat * weight.toNat),
        saturated || decide (18446744073709551615 < n + increment.toNat * weight.toNat)) := by
  have hweight : weight.toUInt64.toNat = weight.toNat := UInt32.toNat_toUInt64 weight
  have hzero : weight ≠ 0 ↔ weight.toUInt64 ≠ 0 := by
    rw [ne_eq, ne_eq, ← UInt64.toNat_inj, hweight, UInt64.toNat_zero, ← UInt32.toNat_inj]
    rfl
  unfold addWeighted
  by_cases hbig : weight ≠ 0 ∧ increment > top / weight.toUInt64
  · rw [if_pos hbig, add_clamp n top saturated h]
    have hover := (lt_div_iff_overflow (hzero.mp hbig.1)).mp hbig.2
    rw [hweight] at hover
    have hfull : clamp (n + top.toNat) = clamp (n + increment.toNat * weight.toNat) := by
      refine eq_clamp ?_
      rw [toNat_clamp, toNat_top]
      omega
    rw [decide_eq_true (by omega : 18446744073709551615 < n + increment.toNat * weight.toNat),
      Bool.or_true, hfull]
  · obtain ⟨hmul, hle⟩ := toNat_mul_of_not_overflow fun h' => hbig ⟨hzero.mpr h'.1, h'.2⟩
    rw [if_neg hbig, add_clamp n _ saturated h, hmul, hweight]

end Lib.Saturating
