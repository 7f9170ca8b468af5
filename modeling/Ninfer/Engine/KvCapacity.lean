/-
  The KV capacity of an Engine (`src/runtime/engine/kv_capacity.cpp`): how many Main page groups
  a memory budget buys, by the capacity curve of the target.

  Policies and curves carry that their numbers are `std::uint32_t` and `std::size_t` (64 bits).
  The one sum the source takes without a check, the candidate of the automatic mode, is taken
  modulo `2^64`; its other differences and products stand behind checks or fit. `policy.mode` has
  no third value, so the `default` case of the switch is left out, and so are the fields of the
  resolution that are copied from the input or constant.
-/
import Ninfer.Lib.Fallible
import Ninfer.Core.Handle
import Ninfer.Core.PageLayout

namespace Ninfer.Engine

open Lib

inductive KvCapacityMode where
  | explicit
  | automatic
  deriving DecidableEq

structure KvCapacityPolicy where
  mode : KvCapacityMode := .explicit
  explicitTokens : Nat := 2048
  automaticHeadroomBytes : Nat := 0
  slackFloorBytes : Nat := 0
  tokens_le : explicitTokens ≤ maxU32 := by decide
  headroom_le : automaticHeadroomBytes ≤ maxU64 := by decide
  floor_le : slackFloorBytes ≤ maxU64 := by decide

structure SequenceCapacityCurve where
  mainPageTokens : Nat
  minimumMainPageGroups : Nat
  maximumMainPageGroups : Nat
  minimumDeviceReservationBytes : Nat
  bytesPerAdditionalMainPageGroup : Nat
  tokens_le : mainPageTokens ≤ maxU32 := by decide
  minimum_le : minimumMainPageGroups ≤ maxU32 := by decide
  maximum_le : maximumMainPageGroups ≤ maxU32 := by decide
  reservation_le : minimumDeviceReservationBytes ≤ maxU64 := by decide
  stride_le : bytesPerAdditionalMainPageGroup ≤ maxU64 := by decide

structure KvCapacityResolution where
  mainPageGroups : Nat
  resolvedTokens : Nat
  runtimeReservationBytes : Nat
  plannedSlackBytes : Nat

def validateCurve (curve : SequenceCapacityCurve) : Except Fault Unit := do
  refuse (curve.mainPageTokens = 0 ∨ curve.minimumMainPageGroups = 0 ∨
      curve.minimumMainPageGroups > curve.maximumMainPageGroups ∨
      curve.minimumDeviceReservationBytes = 0)
    (.invalidArgument "sequence capacity curve is invalid")
  refuse (curve.minimumMainPageGroups < curve.maximumMainPageGroups ∧
      curve.bytesPerAdditionalMainPageGroup = 0)
    (.invalidArgument "expandable sequence capacity curve has zero byte stride")

def explicitPageGroups (policy : KvCapacityPolicy) (curve : SequenceCapacityCurve) :
    Except Fault Nat := do
  refuse (policy.explicitTokens = 0) (.invalidArgument "explicit KV capacity must be positive")
  let pages := 1 + (policy.explicitTokens - 1) / curve.mainPageTokens
  refuse (pages > maxU32) (.overflowError "explicit KV page count exceeds uint32")
  return pages

namespace SequenceCapacityCurve

variable (curve : SequenceCapacityCurve)

/-- The curve has a point for so many Main page groups. -/
def Contains (groups : Nat) : Prop :=
  curve.minimumMainPageGroups ≤ groups ∧ groups ≤ curve.maximumMainPageGroups
  deriving Decidable

/-- The check that `reservation_bytes` and `resolved_tokens` begin with. -/
def checkGroups (mainPageGroups : Nat) : Except Fault Unit := do
  validateCurve curve
  refuse (¬ curve.Contains mainPageGroups)
    (.invalidArgument ("Main KV page count " ++ toString mainPageGroups ++
      " is outside the target capacity curve [" ++ toString curve.minimumMainPageGroups ++ ", " ++
      toString curve.maximumMainPageGroups ++ "] (" ++ toString curve.mainPageTokens ++
      " tokens per group, so " ++ toString (curve.minimumMainPageGroups * curve.mainPageTokens) ++
      " to " ++ toString (curve.maximumMainPageGroups * curve.mainPageTokens) ++ " tokens)"))

def reservationBytes (mainPageGroups : Nat) : Except Fault Nat := do
  curve.checkGroups mainPageGroups
  let increment ← checkedMul (mainPageGroups - curve.minimumMainPageGroups)
    curve.bytesPerAdditionalMainPageGroup "sequence capacity increment overflows size_t"
  checkedAdd curve.minimumDeviceReservationBytes increment
    "sequence capacity reservation overflows size_t"

def resolvedTokens (mainPageGroups : Nat) : Except Fault Nat := do
  curve.checkGroups mainPageGroups
  let tokens := mainPageGroups * curve.mainPageTokens
  refuse (tokens > maxU32) (.overflowError "resolved KV token capacity exceeds uint32")
  return tokens

end SequenceCapacityCurve

section Resolve

variable (policy : KvCapacityPolicy) (curve : SequenceCapacityCurve) (available : Nat)

def requiredSlack : Nat := max policy.automaticHeadroomBytes policy.slackFloorBytes

/-- The case `Explicit` of the switch: the page groups and the capacity budget. -/
def explicitBudget : Except Fault (Nat × Nat) := do
  refuse (policy.automaticHeadroomBytes ≠ 0)
    (.invalidArgument "explicit KV capacity must not carry automatic headroom")
  let pages ← explicitPageGroups policy curve
  refuse (policy.slackFloorBytes > 0 ∧ available < policy.slackFloorBytes)
    (.invalidArgument ("explicit KV capacity requires at least " ++
      toString policy.slackFloorBytes ++ " bytes of slack floor, but only " ++
      toString available ++ " bytes are available after weights"))
  return (pages, available - policy.slackFloorBytes)

/-- The page groups the automatic mode would like to have, as an exact number. -/
def candidateGroups (budget : Nat) : Nat :=
  curve.minimumMainPageGroups +
    (budget - curve.minimumDeviceReservationBytes) / curve.bytesPerAdditionalMainPageGroup

/-- The page groups of a budget, by the sum the source takes in 64 bits. -/
def automaticPageGroups (budget : Nat) : Nat :=
  if curve.minimumMainPageGroups < curve.maximumMainPageGroups then
    min (candidateGroups curve budget % 2 ^ 64) curve.maximumMainPageGroups
  else curve.minimumMainPageGroups

/-- The case `Automatic` of the switch. -/
def automaticBudget : Except Fault (Nat × Nat) := do
  refuse (available < requiredSlack policy)
    (.invalidArgument ("automatic KV capacity requires at least " ++
      toString (requiredSlack policy) ++ " bytes of headroom/slack floor, but only " ++
      toString available ++ " bytes are available after weights"))
  let budget := available - requiredSlack policy
  refuse (budget < curve.minimumDeviceReservationBytes)
    (.invalidArgument ("minimum Engine runtime reservation requires " ++
      toString curve.minimumDeviceReservationBytes ++ " bytes in addition to " ++
      toString (requiredSlack policy) ++
      " bytes of automatic headroom/slack floor, but only " ++ toString available ++
      " bytes are available after weights"))
  return (automaticPageGroups curve budget, budget)

def capacityBudget : Except Fault (Nat × Nat) :=
  match policy.mode with
  | .explicit => explicitBudget policy curve available
  | .automatic => automaticBudget policy curve available

def overBudget (reservation budget : Nat) : Fault :=
  if policy.mode = .explicit ∧ policy.slackFloorBytes > 0 then
    .invalidArgument ("requested Engine runtime reservation requires " ++ toString reservation ++
      " bytes, which violates the required slack floor of " ++ toString policy.slackFloorBytes ++
      " bytes (available after weights: " ++ toString available ++ " bytes)")
  else
    .invalidArgument ("requested Engine runtime reservation requires " ++ toString reservation ++
      " bytes, but only " ++ toString budget ++ " bytes are available for runtime capacity")

def resolveKvCapacity : Except Fault KvCapacityResolution := do
  validateCurve curve
  let (pages, budget) ← capacityBudget policy curve available
  let reservation ← curve.reservationBytes pages
  refuse (reservation > budget) (overBudget policy available reservation budget)
  let tokens ← curve.resolvedTokens pages
  return ⟨pages, tokens, reservation, available - reservation⟩

end Resolve

/-! ## What the checks say -/

namespace SequenceCapacityCurve

variable {curve : SequenceCapacityCurve} {groups n : Nat}

/-- A curve that `validate_curve` accepts. -/
structure Valid (curve : SequenceCapacityCurve) : Prop where
  tokens : 0 < curve.mainPageTokens
  minimum : 0 < curve.minimumMainPageGroups
  range : curve.minimumMainPageGroups ≤ curve.maximumMainPageGroups
  reservation : 0 < curve.minimumDeviceReservationBytes
  stride : curve.minimumMainPageGroups < curve.maximumMainPageGroups →
    0 < curve.bytesPerAdditionalMainPageGroup

/-- The bytes of so many Main page groups. -/
def reservation (curve : SequenceCapacityCurve) (groups : Nat) : Nat :=
  curve.minimumDeviceReservationBytes +
    (groups - curve.minimumMainPageGroups) * curve.bytesPerAdditionalMainPageGroup

theorem validateCurve_ok_iff {u : Unit} : validateCurve curve = .ok u ↔ curve.Valid := by
  rw [validateCurve, refuse_bind_eq_ok_iff, refuse_eq_ok_iff]
  constructor
  · rintro ⟨hcurve, hstride⟩
    exact ⟨by omega, by omega, by omega, by omega, by omega⟩
  · rintro ⟨htokens, hminimum, hrange, hreservation, hstride⟩
    exact ⟨by omega, by omega⟩

theorem checkGroups_ok_iff {u : Unit} :
    curve.checkGroups groups = .ok u ↔ curve.Valid ∧ curve.Contains groups := by
  rw [checkGroups, bind_eq_ok_iff]
  simp [validateCurve_ok_iff, refuse_eq_ok_iff]

theorem checkedMul_ok_iff {a b : Nat} {label : String} :
    checkedMul a b label = .ok n ↔ n = a * b ∧ n ≤ maxU64 := by
  unfold checkedMul
  split_ifs with h
  · have hbig := (Nat.div_lt_iff_lt_mul (Nat.pos_of_ne_zero h.1)).mp h.2
    exact ⟨nofun, by omega⟩
  · have hfits : a * b ≤ maxU64 := by
      by_cases hb : b = 0
      · rw [hb, Nat.mul_zero]
        exact Nat.zero_le _
      · exact Nat.not_lt.mp fun hlt =>
          h ⟨hb, (Nat.div_lt_iff_lt_mul (Nat.pos_of_ne_zero hb)).mpr hlt⟩
    rw [Except.ok.injEq]
    exact ⟨fun heq => ⟨heq.symm, heq ▸ hfits⟩, fun heq => heq.1.symm⟩

theorem reservationBytes_ok_iff : curve.reservationBytes groups = .ok n ↔
      (curve.Valid ∧ curve.Contains groups) ∧ n = curve.reservation groups ∧ n ≤ maxU64 := by
  have hle := curve.reservation_le
  rw [reservationBytes, bind_eq_ok_iff]
  simp only [checkGroups_ok_iff, exists_const, bind_eq_ok_iff, checkedMul_ok_iff]
  refine and_congr_right fun _ => ?_
  unfold reservation checkedAdd
  constructor
  · rintro ⟨increment, ⟨rfl, _⟩, h⟩
    split_ifs at h with hover
    obtain rfl := Except.ok.inj h
    exact ⟨rfl, by omega⟩
  · rintro ⟨rfl, hfits⟩
    exact ⟨_, ⟨rfl, by omega⟩, if_neg (by omega)⟩

theorem resolvedTokens_ok_iff : curve.resolvedTokens groups = .ok n ↔
      (curve.Valid ∧ curve.Contains groups) ∧ n = groups * curve.mainPageTokens ∧ n ≤ maxU32 := by
  rw [resolvedTokens, bind_eq_ok_iff]
  simp only [checkGroups_ok_iff, exists_const, refuse_bind_eq_ok_iff]
  refine and_congr_right fun _ => ?_
  constructor
  · rintro ⟨hfits, ⟨⟩⟩
    exact ⟨rfl, Nat.not_lt.mp hfits⟩
  · rintro ⟨rfl, hfits⟩
    exact ⟨Nat.not_lt.mpr hfits, rfl⟩

end SequenceCapacityCurve

open SequenceCapacityCurve

variable {policy : KvCapacityPolicy} {curve : SequenceCapacityCurve} {available : Nat}
  {r : KvCapacityResolution}

/-- The call went through the budget of its mode, the reservation and the token count. -/
theorem resolveKvCapacity_ok_iff : resolveKvCapacity policy curve available = .ok r ↔
      ∃ pages budget, capacityBudget policy curve available = .ok (pages, budget) ∧
        (curve.Valid ∧ curve.Contains pages) ∧ curve.reservation pages ≤ maxU64 ∧
        curve.reservation pages ≤ budget ∧ pages * curve.mainPageTokens ≤ maxU32 ∧
        r = ⟨pages, pages * curve.mainPageTokens, curve.reservation pages,
          available - curve.reservation pages⟩ := by
  rw [resolveKvCapacity, bind_eq_ok_iff]
  constructor
  · rintro ⟨_, _, h⟩
    obtain ⟨⟨pages, budget⟩, hbudget, h⟩ := bind_eq_ok h
    obtain ⟨_, hreservation, h⟩ := bind_eq_ok h
    obtain ⟨hfits, h⟩ := refuse_bind_eq_ok_iff.mp h
    obtain ⟨_, htokens, h⟩ := bind_eq_ok h
    obtain ⟨hin, rfl, hbytes⟩ := reservationBytes_ok_iff.mp hreservation
    obtain ⟨_, rfl, hcount⟩ := resolvedTokens_ok_iff.mp htokens
    cases h
    exact ⟨pages, budget, hbudget, hin, hbytes, Nat.not_lt.mp hfits, hcount, rfl⟩
  · rintro ⟨pages, budget, hbudget, hin, hbytes, hfits, hcount, rfl⟩
    refine ⟨(), validateCurve_ok_iff.mpr hin.1, bind_eq_ok_iff.mpr ⟨(pages, budget), hbudget, ?_⟩⟩
    refine bind_eq_ok_iff.mpr ⟨_, reservationBytes_ok_iff.mpr ⟨hin, rfl, hbytes⟩, ?_⟩
    exact refuse_bind_eq_ok_iff.mpr ⟨Nat.not_lt.mpr hfits, bind_eq_ok_iff.mpr
      ⟨_, resolvedTokens_ok_iff.mpr ⟨hin, rfl, hcount⟩, rfl⟩⟩

/-! ## Automatic mode -/

/-- What an automatic resolution promises. -/
structure Maximal (policy : KvCapacityPolicy) (curve : SequenceCapacityCurve) (available : Nat)
    (r : KvCapacityResolution) : Prop where
  range : curve.Contains r.mainPageGroups
  reservation : r.runtimeReservationBytes = curve.reservation r.mainPageGroups
  fits : curve.reservation r.mainPageGroups + requiredSlack policy ≤ available
  maximal : r.mainPageGroups = curve.maximumMainPageGroups ∨
    available < curve.reservation (r.mainPageGroups + 1) + requiredSlack policy
  slack : r.plannedSlackBytes = available - curve.reservation r.mainPageGroups
  tokens : r.resolvedTokens = r.mainPageGroups * curve.mainPageTokens
  /-- No sum or product that the source takes wraps. -/
  exact : curve.reservation r.mainPageGroups ≤ maxU64 ∧ r.resolvedTokens ≤ maxU32 ∧
    (curve.minimumMainPageGroups < curve.maximumMainPageGroups →
      candidateGroups curve (available - requiredSlack policy) ≤ maxU64)

/-- The 64-bit sum of the candidate wraps below the minimum, or not at all. -/
theorem automaticPageGroups_eq {budget : Nat} (hbudget : budget ≤ maxU64)
    (hin : curve.Contains (automaticPageGroups curve budget))
    (hrange : curve.minimumMainPageGroups < curve.maximumMainPageGroups) :
    candidateGroups curve budget ≤ maxU64 ∧ automaticPageGroups curve budget =
      min (candidateGroups curve budget) curve.maximumMainPageGroups := by
  have hmin := curve.minimum_le
  have hmax := curve.maximum_le
  have hdiv := Nat.div_le_self (budget - curve.minimumDeviceReservationBytes)
    curve.bytesPerAdditionalMainPageGroup
  unfold Contains automaticPageGroups at hin
  unfold automaticPageGroups
  rw [if_pos hrange] at hin ⊢
  have hcandidate : candidateGroups curve budget ≤ curve.minimumMainPageGroups + budget := by
    unfold candidateGroups
    omega
  unfold maxU32 maxU64 at *
  generalize candidateGroups curve budget = candidate at *
  have hfits : candidate < 2 ^ 64 := by omega
  exact ⟨by omega, by rw [Nat.mod_eq_of_lt hfits]⟩

/-- One more group than the budget's quotient does not fit. -/
theorem lt_reservation_succ {budget : Nat} (h : curve.Valid)
    (hrange : curve.minimumMainPageGroups < curve.maximumMainPageGroups) :
    budget < curve.reservation (candidateGroups curve budget + 1) := by
  have hdiv := Nat.lt_mul_div_succ (budget - curve.minimumDeviceReservationBytes) (h.stride hrange)
  rw [Nat.mul_comm] at hdiv
  rw [SequenceCapacityCurve.reservation, candidateGroups, Nat.add_assoc, Nat.add_sub_cancel_left]
  omega

theorem maximal_of_automatic (havailable : available ≤ maxU64) (hmode : policy.mode = .automatic)
    (h : resolveKvCapacity policy curve available = .ok r) :
    Maximal policy curve available r := by
  obtain ⟨pages, budget, hbudget, ⟨hvalid, hin⟩, hbytes, hfits, hcount, rfl⟩ :=
    resolveKvCapacity_ok_iff.mp h
  rw [capacityBudget, hmode] at hbudget
  obtain ⟨hslack, hbudget⟩ := refuse_bind_eq_ok_iff.mp hbudget
  obtain ⟨_, hbudget⟩ := refuse_bind_eq_ok_iff.mp hbudget
  obtain ⟨rfl, rfl⟩ := Prod.mk.inj (Except.ok.inj hbudget)
  have hwide : available - requiredSlack policy ≤ maxU64 := Nat.le_trans (Nat.sub_le _ _) havailable
  refine
    { range := hin
      reservation := rfl
      fits := by dsimp only; omega
      maximal := ?_
      slack := rfl
      tokens := rfl
      exact := ⟨hbytes, hcount, fun hrange => (automaticPageGroups_eq hwide hin hrange).1⟩ }
  dsimp only
  by_cases hrange : curve.minimumMainPageGroups < curve.maximumMainPageGroups
  · have hover := @lt_reservation_succ curve (available - requiredSlack policy) hvalid hrange
    have heq := (automaticPageGroups_eq hwide hin hrange).2
    rcases Nat.le_total curve.maximumMainPageGroups
      (candidateGroups curve (available - requiredSlack policy)) with hle | hle
    · exact .inl (heq.trans (Nat.min_eq_right hle))
    · rw [heq, Nat.min_eq_left hle]
      omega
  · have hle := hin.2
    have hge := hin.1
    exact .inl (by omega)

/-! ## Explicit mode -/

/-- The page groups that hold the tokens of the policy. -/
def explicitGroups (policy : KvCapacityPolicy) (curve : SequenceCapacityCurve) : Nat :=
  1 + (policy.explicitTokens - 1) / curve.mainPageTokens

/-- What an explicit request has to satisfy. -/
structure Admissible (policy : KvCapacityPolicy) (curve : SequenceCapacityCurve)
    (available : Nat) : Prop where
  valid : curve.Valid
  headroom : policy.automaticHeadroomBytes = 0
  tokens : 0 < policy.explicitTokens
  range : curve.Contains (explicitGroups policy curve)
  fits : curve.reservation (explicitGroups policy curve) + policy.slackFloorBytes ≤ available
  /-- The tokens of the whole groups are counted in 32 bits. -/
  resolved : explicitGroups policy curve * curve.mainPageTokens ≤ maxU32

theorem explicitBudget_ok_iff {pages budget : Nat} :
    explicitBudget policy curve available = .ok (pages, budget) ↔
      policy.automaticHeadroomBytes = 0 ∧ 0 < policy.explicitTokens ∧
      pages = explicitGroups policy curve ∧ policy.slackFloorBytes ≤ available ∧
      budget = available - policy.slackFloorBytes := by
  have htokens := policy.tokens_le
  have hdiv := Nat.div_le_self (policy.explicitTokens - 1) curve.mainPageTokens
  rw [explicitBudget, refuse_bind_eq_ok_iff, bind_eq_ok_iff, ne_eq, not_not]
  refine and_congr_right fun _ => ?_
  simp only [explicitPageGroups, refuse_bind_eq_ok_iff]
  constructor
  · rintro ⟨_, ⟨hpos, _, ⟨⟩⟩, hfloor, ⟨⟩⟩
    exact ⟨Nat.pos_of_ne_zero hpos, rfl, by omega, rfl⟩
  · rintro ⟨hpos, rfl, hfloor, rfl⟩
    exact ⟨_, ⟨Nat.ne_of_gt hpos, by omega, rfl⟩, by omega, rfl⟩

theorem explicit_accepted_iff (havailable : available ≤ maxU64) (hmode : policy.mode = .explicit) :
    (∃ r, resolveKvCapacity policy curve available = .ok r) ↔
      Admissible policy curve available := by
  simp only [resolveKvCapacity_ok_iff, capacityBudget, hmode, explicitBudget_ok_iff]
  constructor
  · rintro
      ⟨_, pages, budget, ⟨hheadroom, hpos, rfl, hfloor, rfl⟩, ⟨hvalid, hin⟩, _, hfits, hcount, _⟩
    exact ⟨hvalid, hheadroom, hpos, hin, by omega, hcount⟩
  · intro h
    have hfits := h.fits
    exact ⟨_, _, _, ⟨h.headroom, h.tokens, rfl, by omega, rfl⟩, ⟨h.valid, h.range⟩, by omega,
      by omega, h.resolved, rfl⟩

/-- An automatic resolution takes as many page groups as fit. An explicit request goes through
    exactly when it is well formed, on the curve, fits beside its slack floor and has a token count
    of 32 bits. -/
theorem kv_capacity_is_maximal_or_admissible (policy : KvCapacityPolicy)
    (curve : SequenceCapacityCurve) (available : UInt64) :
    (policy.mode = .automatic → ∀ r, resolveKvCapacity policy curve available.toNat = .ok r →
      Maximal policy curve available.toNat r) ∧
    (policy.mode = .explicit → ((∃ r, resolveKvCapacity policy curve available.toNat = .ok r) ↔
        Admissible policy curve available.toNat)) := by
  have havailable : available.toNat ≤ maxU64 := Nat.le_of_lt_succ available.toNat_lt
  exact ⟨fun hmode _ h => maximal_of_automatic havailable hmode h, explicit_accepted_iff havailable⟩

/-- Groups of 64 tokens, as many as 32 bits of tokens ask for, one byte each. -/
def wideCurve : SequenceCapacityCurve where
  mainPageTokens := 64
  minimumMainPageGroups := 1
  maximumMainPageGroups := 67108864
  minimumDeviceReservationBytes := 1
  bytesPerAdditionalMainPageGroup := 1

/-- Both modes: 10 bytes with 7 of headroom buy three groups, and 128 tokens fit into two. -/
theorem kv_capacity_of_wideCurve :
    Maximal { mode := .automatic, automaticHeadroomBytes := 7 } wideCurve 10 ⟨3, 192, 3, 7⟩ ∧
      Admissible { explicitTokens := 128 } wideCurve 10 := by
  constructor
  · exact (kv_capacity_is_maximal_or_admissible _ wideCurve 10).1 rfl _ rfl
  · exact ((kv_capacity_is_maximal_or_admissible _ wideCurve 10).2 rfl).mp ⟨⟨2, 128, 2, 8⟩, rfl⟩

/-- An explicit request that is on the curve and fits, and whose last group ends after the last
    32-bit token count: it is rejected all the same. -/
theorem explicit_request_rejected_within_range : wideCurve.Valid ∧
      wideCurve.Contains (explicitGroups { explicitTokens := 4294967295 } wideCurve) ∧
      wideCurve.reservation (explicitGroups { explicitTokens := 4294967295 } wideCurve) ≤ 67108864 ∧
      resolveKvCapacity { explicitTokens := 4294967295 } wideCurve 67108864 =
        .error (.overflowError "resolved KV token capacity exceeds uint32") := by
  refine ⟨⟨?_, ?_, ?_, ?_, ?_⟩, ?_, ?_, rfl⟩
  all_goals decide

end Ninfer.Engine
