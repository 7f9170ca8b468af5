/-
  The time budget of the materialization search: `materialization_budget.h`.

  Times are unsigned 64-bit nanoseconds and the number of renewals is an unsigned 32-bit counter,
  as in the source, so sums wrap where the source's do. Whether the cancellation flag is set when a
  call reads it is part of the call.

  What is claimed here is about any sequence of calls: what a granted call leaves, how far the grant
  can grow, and what every renewal costs. The counter wraps after `2 ^ 32` renewals; a search that
  starts no earlier than its allowance never gets that far.
-/
import Ninfer.Lib.Saturating

namespace Ninfer.Planner

/-! ## The allowance -/

/-- The planning time of one admission boundary. -/
structure PlanningAllowance where
  startedNs : UInt64
  limitNs : UInt64 := 50000000
  affectedRequests : UInt32 := 1
  controlDeadlineNs : UInt64 := 18446744073709551615

namespace PlanningAllowance

def remaining (a : PlanningAllowance) (cancelled : Bool) (now : UInt64) : UInt64 :=
  if cancelled = true ∨ a.controlDeadlineNs ≤ now then 0
  else
    let elapsed := if a.startedNs < now then now - a.startedNs else 0
    min (if elapsed < a.limitNs then a.limitNs - elapsed else 0) (a.controlDeadlineNs - now)

/-- The end of the allowance: its limit or the control deadline, whichever is earlier. -/
def endNs (a : PlanningAllowance) : Nat :=
  min (a.startedNs.toNat + a.limitNs.toNat) a.controlDeadlineNs.toNat

end PlanningAllowance

/-! ## The budget -/

inductive MaterializationStopReason where
  | timeBudget
  | insufficientExpectedGain

structure MaterializationSearchBudget where
  boundaryLimited : Bool := false
  allowance : PlanningAllowance
  started : UInt64
  granted : UInt64
  renewalProgress : UInt64 := 0
  renewals : UInt32 := 0
  discoveryUsed : Bool := false
  reason : MaterializationStopReason := .timeBudget

/-- The arguments of `allow`, with the cancellation flag as the call reads it. -/
structure AllowCall where
  now : UInt64
  nextOperationNs : UInt64
  completionNs : UInt64
  gainNs : UInt64
  completePrediction : Bool
  progress : UInt64
  discoveryEligible : Bool := true
  cancelled : Bool := false

namespace AllowCall

/-- The time that the next operation is taken for. -/
def next (c : AllowCall) : UInt64 := max 1 c.nextOperationNs

def completion (c : AllowCall) : UInt64 := max c.next c.completionNs

end AllowCall

/-- The part of a gain that may be spent on planning. -/
def economic (a : PlanningAllowance) (gain : UInt64) : UInt64 :=
  if gain = 18446744073709551615 then 0 else gain / 20 / (max 1 a.affectedRequests).toUInt64

namespace MaterializationSearchBudget

/-- The constructor. -/
def new (allowance : PlanningAllowance) (cancelled : Bool) (started initialCost : UInt64) :
    MaterializationSearchBudget :=
  { allowance
    started
    granted := min 5000000
      (min (economic allowance initialCost) (allowance.remaining cancelled started)) }

def elapsed (b : MaterializationSearchBudget) (now : UInt64) : UInt64 :=
  if b.started < now then now - b.started else 0

/-- What a renewal would add. -/
def added (b : MaterializationSearchBudget) (c : AllowCall) : UInt64 :=
  let hard := b.elapsed c.now + b.allowance.remaining c.cancelled c.now
  let growth := max b.granted c.next
  let added := min growth (if b.granted < hard then hard - b.granted else 0)
  if c.completePrediction then added else min added 5000000

def refused (b : MaterializationSearchBudget) (reason : MaterializationStopReason) :
    Bool × MaterializationSearchBudget :=
  (false, { b with reason })

def allow (b : MaterializationSearchBudget) (c : AllowCall) : Bool × MaterializationSearchBudget :=
  let b := { b with boundaryLimited := false }
  let elapsed := b.elapsed c.now
  let remaining := b.allowance.remaining c.cancelled c.now
  let next := c.next
  let completion := c.completion
  if remaining < next then { b with boundaryLimited := true }.refused .timeBudget
  else if elapsed < b.granted ∧ next ≤ b.granted - elapsed then (true, b)
  else if remaining < completion ∨ economic b.allowance c.gainNs < completion then
    b.refused .insufficientExpectedGain
  -- unknown forecasts get one bounded discovery episode
  else if c.completePrediction = false ∧ (c.discoveryEligible = false ∨ b.discoveryUsed = true) then
    b.refused .insufficientExpectedGain
  else if b.renewals ≠ 0 ∧ c.progress ≤ b.renewalProgress then b.refused .insufficientExpectedGain
  else if b.added c = 0 ∨ b.granted + b.added c < elapsed + next then b.refused .timeBudget
  else
    (true, { b with
        granted := b.granted + b.added c
        renewals := b.renewals + 1
        renewalProgress := c.progress
        discoveryUsed := b.discoveryUsed || !c.completePrediction })

/-- The budget after some calls. -/
def after (b : MaterializationSearchBudget) (calls : List AllowCall) :
    MaterializationSearchBudget :=
  calls.foldl (fun b c => (b.allow c).2) b

/-- The calls that were granted a renewal, each with what it added. -/
def renewalsOf : MaterializationSearchBudget → List AllowCall → List (AllowCall × Nat)
  | _, [] => []
  | b, c :: calls =>
    let t := (b.allow c).2
    if b.granted < t.granted then (c, t.granted.toNat - b.granted.toNat) :: t.renewalsOf calls
    else t.renewalsOf calls

/-! ## One call -/

open Lib.Saturating (toNat_subOrZero)

variable {b t : MaterializationSearchBudget} {c : AllowCall}

variable (a : PlanningAllowance)

variable (cancelled : Bool)

theorem remaining_toNat (now : UInt64) :
    (a.remaining cancelled now).toNat = if cancelled = true ∨ a.controlDeadlineNs ≤ now then 0
      else min (a.limitNs.toNat - (now.toNat - a.startedNs.toNat))
        (a.controlDeadlineNs.toNat - now.toNat) := by
  unfold PlanningAllowance.remaining
  by_cases h : cancelled = true ∨ a.controlDeadlineNs ≤ now
  · rw [if_pos h, if_pos h]
    rfl
  · have hnow : now ≤ a.controlDeadlineNs := by
      rw [UInt64.le_iff_toNat_le] at h ⊢
      omega
    rw [if_neg h, if_neg h]
    rw [UInt64.toNat_min, UInt64.toNat_sub_of_le _ _ hnow, toNat_subOrZero, toNat_subOrZero]

theorem elapsed_toNat (b : MaterializationSearchBudget) (now : UInt64) :
    (b.elapsed now).toNat = now.toNat - b.started.toNat :=
  toNat_subOrZero _ _

/-- No more is left than the time to the end of the allowance. -/
theorem remaining_le (now : UInt64) :
    (a.remaining cancelled now).toNat ≤ a.endNs - now.toNat := by
  rw [remaining_toNat]
  unfold PlanningAllowance.endNs
  split_ifs <;> omega

/-- Once the allowance began, what is left ends with it. -/
theorem remaining_eq {a : PlanningAllowance} {cancelled : Bool} {now : UInt64}
    (hstart : a.startedNs ≤ now) (hpos : 0 < (a.remaining cancelled now).toNat) :
    now.toNat + (a.remaining cancelled now).toNat = a.endNs := by
  rw [remaining_toNat] at hpos ⊢
  rw [UInt64.le_iff_toNat_le] at hstart
  unfold PlanningAllowance.endNs
  split_ifs at hpos ⊢ <;> omega

/-- The end of the grants, if the call at `now` could have them all. -/
theorem hard_toNat (b : MaterializationSearchBudget) (c : AllowCall) :
    (b.elapsed c.now + b.allowance.remaining c.cancelled c.now).toNat =
      (c.now.toNat - b.started.toNat) + (b.allowance.remaining c.cancelled c.now).toNat := by
  rw [UInt64.toNat_add, elapsed_toNat]
  have hnow := c.now.toNat_lt
  have hend := b.allowance.controlDeadlineNs.toNat_lt
  rw [remaining_toNat]
  split_ifs with h
  · omega
  · rw [UInt64.le_iff_toNat_le] at h
    omega

theorem added_toNat (b : MaterializationSearchBudget) (c : AllowCall) : (b.added c).toNat =
      let added := min (max b.granted.toNat c.next.toNat)
        ((c.now.toNat - b.started.toNat) + (b.allowance.remaining c.cancelled c.now).toNat -
          b.granted.toNat)
      if c.completePrediction then added else min added 5000000 := by
  have hmin := UInt64.toNat_min (max b.granted c.next)
    (if b.granted < b.elapsed c.now + b.allowance.remaining c.cancelled c.now then
      b.elapsed c.now + b.allowance.remaining c.cancelled c.now - b.granted else 0)
  rw [UInt64.toNat_max, toNat_subOrZero, hard_toNat] at hmin
  unfold added
  cases c.completePrediction with
  | true => exact hmin
  | false => exact (UInt64.toNat_min _ _).trans (congrArg (min · 5000000) hmin)

/-- Nothing that later calls depend on changed. -/
structure Kept (b t : MaterializationSearchBudget) : Prop where
  allowance : t.allowance = b.allowance
  started : t.started = b.started
  granted : t.granted = b.granted
  progress : t.renewalProgress = b.renewalProgress
  renewals : t.renewals = b.renewals
  discovery : t.discoveryUsed = b.discoveryUsed

/-- A renewal was granted. -/
structure Renewed (b : MaterializationSearchBudget) (c : AllowCall)
    (t : MaterializationSearchBudget) : Prop where
  allowance : t.allowance = b.allowance
  started : t.started = b.started
  progress : t.renewalProgress = c.progress
  renewals : t.renewals = b.renewals + 1
  discovery : t.discoveryUsed = (b.discoveryUsed || !c.completePrediction)
  gate : b.renewals ≠ 0 → b.renewalProgress < c.progress
  once : c.completePrediction = false → b.discoveryUsed = false
  worth : c.completion ≤ economic b.allowance c.gainNs
  opened : 0 < (b.allowance.remaining c.cancelled c.now).toNat
  grown : b.granted.toNat < t.granted.toNat
  bounded : t.granted.toNat ≤
    (c.now.toNat - b.started.toNat) + (b.allowance.remaining c.cancelled c.now).toNat
  doubled : c.completePrediction = true → 2 * b.granted.toNat ≤ t.granted.toNat ∨ t.granted.toNat =
      (c.now.toNat - b.started.toNat) + (b.allowance.remaining c.cancelled c.now).toNat
  small : c.completePrediction = false → t.granted.toNat - b.granted.toNat ≤ 5000000
  covers : (c.now.toNat - b.started.toNat) + c.next.toNat ≤ t.granted.toNat

theorem one_le_next (c : AllowCall) : 1 ≤ c.next.toNat := by
  unfold AllowCall.next
  rw [UInt64.toNat_max]
  exact Nat.le_max_left _ _

/-- The last branch of `allow`. -/
theorem renewed_of (b : MaterializationSearchBudget) (c : AllowCall)
    (hopen : ¬ b.allowance.remaining c.cancelled c.now < c.next)
    (hworth : ¬ (b.allowance.remaining c.cancelled c.now < c.completion ∨
      economic b.allowance c.gainNs < c.completion))
    (honce : ¬ (c.completePrediction = false ∧
      (c.discoveryEligible = false ∨ b.discoveryUsed = true)))
    (hgate : ¬ (b.renewals ≠ 0 ∧ c.progress ≤ b.renewalProgress))
    (hadded : ¬ (b.added c = 0 ∨ b.granted + b.added c < b.elapsed c.now + c.next)) :
    Renewed b c { b with
      boundaryLimited := false
      granted := b.granted + b.added c
      renewals := b.renewals + 1
      renewalProgress := c.progress
      discoveryUsed := b.discoveryUsed || !c.completePrediction } := by
  have hone := one_le_next c
  have hvalue := added_toNat b c
  have hnext : c.next.toNat ≤ (b.allowance.remaining c.cancelled c.now).toNat := by
    rw [UInt64.lt_iff_toNat_lt] at hopen
    omega
  have hpos : (b.added c).toNat ≠ 0 := fun h => hadded (.inl (UInt64.toNat_inj.mp h))
  have hhard := (b.elapsed c.now + b.allowance.remaining c.cancelled c.now).toNat_lt
  rw [hard_toNat] at hhard
  have hle : (b.added c).toNat ≤ (c.now.toNat - b.started.toNat) +
      (b.allowance.remaining c.cancelled c.now).toNat - b.granted.toNat := by
    rw [hvalue]
    dsimp only
    split_ifs <;> omega
  -- neither sum wraps
  have hsum : (b.granted + b.added c).toNat = b.granted.toNat + (b.added c).toNat := by
    rw [UInt64.toNat_add]
    exact Nat.mod_eq_of_lt (by omega)
  have hreach : (b.elapsed c.now + c.next).toNat =
      (c.now.toNat - b.started.toNat) + c.next.toNat := by
    rw [UInt64.toNat_add, elapsed_toNat]
    exact Nat.mod_eq_of_lt (by omega)
  constructor
  · rfl
  · rfl
  · rfl
  · rfl
  · rfl
  · intro h
    by_contra hp
    exact hgate ⟨h, UInt64.not_lt.mp hp⟩
  · intro h
    by_contra hu
    exact honce ⟨h, .inr (by simpa using hu)⟩
  · exact UInt64.not_lt.mp fun h => hworth (.inr h)
  · omega
  · rw [hsum]
    omega
  · rw [hsum]
    omega
  · intro h
    rw [hsum]
    rw [h] at hvalue
    simp only [if_true] at hvalue
    omega
  · intro h
    rw [hsum]
    rw [h] at hvalue
    simp only [Bool.false_eq_true, if_false] at hvalue
    omega
  · have hcover : ¬ b.granted + b.added c < b.elapsed c.now + c.next := fun h => hadded (.inr h)
    rw [UInt64.lt_iff_toNat_lt, hsum, hreach] at hcover
    rw [hsum]
    omega

/-- What a call may do: refuse, stay within the grant, or renew it. -/
theorem allow_cases (b : MaterializationSearchBudget) (c : AllowCall) :
    ((b.allow c).1 = false ∧ Kept b (b.allow c).2) ∨
    ((b.allow c).1 = true ∧ Kept b (b.allow c).2 ∧
      (c.now.toNat - b.started.toNat) + c.next.toNat ≤ b.granted.toNat) ∨
    ((b.allow c).1 = true ∧ Renewed b c (b.allow c).2) := by
  have hkept : ∀ limited reason, Kept b { b with boundaryLimited := limited, reason } := fun _ _ =>
    ⟨rfl, rfl, rfl, rfl, rfl, rfl⟩
  unfold allow
  dsimp only
  split_ifs with h1 h2 h3 h4 h5 h6
  · exact .inl ⟨rfl, hkept _ _⟩
  · refine .inr (.inl ⟨rfl, hkept _ b.reason, ?_⟩)
    have hlt : b.elapsed c.now < b.granted := h2.1
    have hle : c.next ≤ b.granted - b.elapsed c.now := h2.2
    rw [UInt64.le_iff_toNat_le, UInt64.toNat_sub_of_le _ _ (UInt64.le_of_lt hlt),
      elapsed_toNat] at hle
    rw [UInt64.lt_iff_toNat_lt, elapsed_toNat] at hlt
    omega
  · exact .inl ⟨rfl, hkept _ _⟩
  · exact .inl ⟨rfl, hkept _ _⟩
  · exact .inl ⟨rfl, hkept _ _⟩
  · exact .inl ⟨rfl, hkept _ _⟩
  · exact .inr (.inr ⟨rfl, renewed_of b c h1 h3 h4 h5 h6⟩)

/-! ## Any sequence of calls -/

variable {calls : List AllowCall}

/-- The grant grows in a renewal only. -/
theorem kept_or_renewed (b : MaterializationSearchBudget) (c : AllowCall) :
    (¬ b.granted < (b.allow c).2.granted ∧ Kept b (b.allow c).2) ∨
      (b.granted < (b.allow c).2.granted ∧ Renewed b c (b.allow c).2) := by
  have hsame : ∀ h : Kept b (b.allow c).2, ¬ b.granted < (b.allow c).2.granted := fun h => by
    rw [h.granted]
    exact UInt64.lt_irrefl _
  rcases allow_cases b c with ⟨-, h⟩ | ⟨-, h, -⟩ | ⟨-, h⟩
  · exact .inl ⟨hsame h, h⟩
  · exact .inl ⟨hsame h, h⟩
  · exact .inr ⟨UInt64.lt_iff_toNat_lt.mpr h.grown, h⟩

theorem allow_frame (b : MaterializationSearchBudget) (c : AllowCall) :
    (b.allow c).2.allowance = b.allowance ∧ (b.allow c).2.started = b.started := by
  rcases kept_or_renewed b c with ⟨-, h⟩ | ⟨-, h⟩ <;> exact ⟨h.allowance, h.started⟩

theorem granted_le_allow (b : MaterializationSearchBudget) (c : AllowCall) :
    b.granted.toNat ≤ (b.allow c).2.granted.toNat := by
  rcases kept_or_renewed b c with ⟨-, h⟩ | ⟨-, h⟩
  · rw [h.granted]
  · exact h.grown.le

/-- A call that returns true fits into the grant it leaves. -/
theorem fits_of_allow (h : (b.allow c).1 = true) :
    (c.now.toNat - b.started.toNat) + c.next.toNat ≤ (b.allow c).2.granted.toNat := by
  rcases allow_cases b c with ⟨hf, -⟩ | ⟨-, hk, hfit⟩ | ⟨-, hr⟩
  · rw [hf] at h
    cases h
  · rw [hk.granted]
    exact hfit
  · exact hr.covers

theorem after_frame (b : MaterializationSearchBudget) (calls : List AllowCall) :
    (b.after calls).allowance = b.allowance ∧ (b.after calls).started = b.started := by
  induction calls generalizing b with
  | nil => exact ⟨rfl, rfl⟩
  | cons c calls ih =>
    have hc := allow_frame b c
    have hrest := ih (b.allow c).2
    exact ⟨hrest.1.trans hc.1, hrest.2.trans hc.2⟩

theorem after_append (b : MaterializationSearchBudget) (xs ys : List AllowCall) :
    b.after (xs ++ ys) = (b.after xs).after ys :=
  List.foldl_append ..

theorem granted_le_after (b : MaterializationSearchBudget) (calls : List AllowCall) :
    b.granted.toNat ≤ (b.after calls).granted.toNat := by
  induction calls generalizing b with
  | nil => exact le_rfl
  | cons c calls ih => exact (granted_le_allow b c).trans (ih _)

/-- The grant ends with the allowance. -/
def Within (b : MaterializationSearchBudget) : Prop :=
  b.granted.toNat ≤ b.allowance.endNs - b.started.toNat

theorem within_new (started cost : UInt64) :
    Within (new a cancelled started cost) := by
  have hle := remaining_le a cancelled started
  unfold Within new
  dsimp only
  rw [UInt64.toNat_min, UInt64.toNat_min]
  omega

theorem Within.allow (h : Within b) (hnow : b.started ≤ c.now) : Within (b.allow c).2 := by
  have hframe := allow_frame b c
  unfold Within at h ⊢
  rw [hframe.1, hframe.2]
  rcases kept_or_renewed b c with ⟨-, hk⟩ | ⟨-, hr⟩
  · rwa [hk.granted]
  · have hbound := hr.bounded
    have hleft := remaining_le b.allowance c.cancelled c.now
    have hpos := hr.opened
    rw [UInt64.le_iff_toNat_le] at hnow
    omega

/-- The grant ends with the allowance, and no call comes before the start. -/
structure Timely (b : MaterializationSearchBudget) (calls : List AllowCall) : Prop where
  within : Within b
  times : ∀ c ∈ calls, b.started ≤ c.now

theorem Timely.head (h : Timely b (c :: calls)) : b.started ≤ c.now :=
  h.times c (List.mem_cons_self ..)

theorem Timely.tail (h : Timely b (c :: calls)) : Timely (b.allow c).2 calls := by
  refine ⟨h.within.allow h.head, fun d hd => ?_⟩
  rw [(allow_frame b c).2]
  exact h.times d (List.mem_cons_of_mem c hd)

theorem Timely.after (h : Timely b calls) : Within (b.after calls) := by
  induction calls generalizing b with
  | nil => exact h.within
  | cons c calls ih => exact ih h.tail

/-! ## Renewals -/

theorem renewalsOf_kept (h : ¬ b.granted < (b.allow c).2.granted) :
    b.renewalsOf (c :: calls) = (b.allow c).2.renewalsOf calls := by
  simp [renewalsOf, if_neg h]

theorem renewalsOf_renewed (h : b.granted < (b.allow c).2.granted) : b.renewalsOf (c :: calls) =
      (c, (b.allow c).2.granted.toNat - b.granted.toNat) :: (b.allow c).2.renewalsOf calls := by
  simp [renewalsOf, if_pos h]

theorem economic_le (gain : UInt64) :
    (economic a gain).toNat ≤ gain.toNat / 20 / max 1 a.affectedRequests.toNat := by
  unfold economic
  split_ifs
  · exact Nat.zero_le _
  · rw [UInt64.toNat_div, UInt64.toNat_div, UInt32.toNat_toUInt64, UInt32.toNat_max]
    exact le_rfl

/-- No renewal costs more than it is worth, and one for an unknown forecast is small. -/
theorem renewal_worth {r : AllowCall × Nat} (hr : r ∈ b.renewalsOf calls) :
    r.1.completion.toNat ≤ r.1.gainNs.toNat / 20 / max 1 b.allowance.affectedRequests.toNat ∧
      (r.1.completePrediction = false → r.2 ≤ 5000000) := by
  induction calls generalizing b with
  | nil => cases hr
  | cons c calls ih =>
    have hframe := (allow_frame b c).1
    rcases kept_or_renewed b c with ⟨hno, -⟩ | ⟨hyes, hren⟩
    · rw [renewalsOf_kept hno] at hr
      rw [← hframe]
      exact ih hr
    · rw [renewalsOf_renewed hyes] at hr
      rcases List.mem_cons.mp hr with rfl | hr
      · exact ⟨(UInt64.le_iff_toNat_le.mp hren.worth).trans (economic_le _ _), hren.small⟩
      · rw [← hframe]
        exact ih hr

variable (renewals : List (AllowCall × Nat))

/-- How many renewals were granted for an unknown forecast. -/
def unknowns : Nat :=
  renewals.countP fun r => r.1.completePrediction = false

theorem unknowns_le (b : MaterializationSearchBudget) (calls : List AllowCall) :
    unknowns (b.renewalsOf calls) ≤ if b.discoveryUsed then 0 else 1 := by
  induction calls generalizing b with
  | nil => exact Nat.zero_le _
  | cons c calls ih =>
    have hrest := ih (b.allow c).2
    rcases kept_or_renewed b c with ⟨hno, hk⟩ | ⟨hyes, hren⟩
    · rw [renewalsOf_kept hno]
      rwa [hk.discovery] at hrest
    · rw [renewalsOf_renewed hyes]
      rw [hren.discovery] at hrest
      unfold unknowns at hrest ⊢
      cases hc : c.completePrediction with
      | true => simpa [hc] using hrest
      | false => simpa [hc, hren.once hc] using hrest

/-- The number of renewals up to which the counter tells the first one apart. -/
def renewalPeriod : Nat := 2 ^ 32

variable {n k : Nat}

/-- After `n` renewals the gate holds wherever the counter is not at zero. -/
theorem progress_gated (hn : b.renewals.toNat = n % renewalPeriod) (calls : List AllowCall)
    {i : Nat} {p p' : UInt64}
    (hp : (b.renewalProgress :: (b.renewalsOf calls).map (·.1.progress))[i]? = some p)
    (hp' : (b.renewalProgress :: (b.renewalsOf calls).map (·.1.progress))[i + 1]? = some p')
    (hi : (n + i) % renewalPeriod ≠ 0) : p < p' := by
  induction calls generalizing b n i with
  | nil => simp [renewalsOf] at hp'
  | cons c calls ih =>
    rcases kept_or_renewed b c with ⟨hno, hk⟩ | ⟨hyes, hren⟩
    · rw [renewalsOf_kept hno, ← hk.progress] at hp hp'
      exact ih (by rw [hk.renewals, hn]) hp hp' hi
    · rw [renewalsOf_renewed hyes, List.map_cons, ← hren.progress] at hp hp'
      cases i with
      | zero =>
        obtain rfl := Option.some.inj hp
        obtain rfl := Option.some.inj hp'
        rw [hren.progress]
        refine hren.gate fun h0 => hi ?_
        rw [h0] at hn
        exact hn.symm
      | succ i =>
        have hcount : (b.allow c).2.renewals.toNat = (n + 1) % renewalPeriod := by
          rw [hren.renewals, UInt32.toNat_add, hn]
          exact Nat.mod_add_mod n renewalPeriod 1
        exact ih hcount hp hp' (by rwa [Nat.add_assoc, Nat.add_comm 1 i])

/-- From one renewal to the next there is progress, but across a multiple of the period. -/
theorem progress_lt (h : b.renewals = 0) (calls : List AllowCall) {i : Nat}
    {r r' : AllowCall × Nat} (hr : (b.renewalsOf calls)[i]? = some r)
    (hr' : (b.renewalsOf calls)[i + 1]? = some r') (hi : (i + 1) % renewalPeriod ≠ 0) :
    r.1.progress < r'.1.progress := by
  refine progress_gated (n := 0) (b := b) (by rw [h]; rfl) calls (i := i + 1) ?_ ?_
    (by rwa [Nat.zero_add])
  · rw [List.getElem?_cons_succ, List.getElem?_map, hr]
    rfl
  · rw [List.getElem?_cons_succ, List.getElem?_map, hr']
    rfl

theorem isChain_progress (h : b.renewals = 0) (calls : List AllowCall) :
    List.IsChain (· < ·) (((b.renewalsOf calls).take renewalPeriod).map (·.1.progress)) := by
  rw [List.isChain_iff_getElem]
  intro i hi
  rw [List.length_map, List.length_take] at hi
  simp only [List.getElem_map, List.getElem_take]
  refine progress_lt h calls (List.getElem?_eq_getElem _) (List.getElem?_eq_getElem _) ?_
  rw [Nat.mod_eq_of_lt (by omega)]
  exact Nat.succ_ne_zero i

/-! ## How many renewals there can be -/

/-- Nothing is renewed once the whole allowance is granted. -/
theorem renewalsOf_exhausted (h : Timely b calls)
    (hall : b.granted.toNat = b.allowance.endNs - b.started.toNat) : b.renewalsOf calls = [] := by
  induction calls generalizing b with
  | nil => rfl
  | cons c calls ih =>
    have hframe := allow_frame b c
    rcases kept_or_renewed b c with ⟨hno, hk⟩ | ⟨-, hren⟩
    · rw [renewalsOf_kept hno]
      exact ih h.tail (by rw [hk.granted, hframe.1, hframe.2, hall])
    · have hgrown := hren.grown
      have hnext := h.tail.within
      unfold Within at hnext
      rw [hframe.1, hframe.2] at hnext
      omega

/-- How many renewals were granted for a complete forecast. -/
def knowns : Nat :=
  renewals.countP fun r => r.1.completePrediction = true

/-- Every renewal for a complete forecast doubles the grant, but the last one. -/
theorem knowns_doubling (hstart : b.allowance.startedNs ≤ b.started) (h : Timely b calls) :
    knowns (b.renewalsOf calls) = 0 ∨ 2 ^ (knowns (b.renewalsOf calls) - 1) * b.granted.toNat ≤
        b.allowance.endNs - b.started.toNat := by
  induction calls generalizing b with
  | nil => exact .inl rfl
  | cons c calls ih =>
    have hframe := allow_frame b c
    have hrest := ih (by rwa [hframe.1, hframe.2]) h.tail
    rw [hframe.1, hframe.2] at hrest
    rcases kept_or_renewed b c with ⟨hno, hk⟩ | ⟨hyes, hren⟩
    · rw [renewalsOf_kept hno, ← hk.granted]
      exact hrest
    · have hgrown := hren.grown
      rw [renewalsOf_renewed hyes]
      unfold knowns at hrest ⊢
      rw [List.countP_cons]
      cases hc : c.completePrediction with
      | false =>
        refine hrest.imp_right fun h => (Nat.mul_le_mul_left _ hgrown.le).trans h
      | true =>
        right
        simp only [decide_true, if_true, Nat.add_sub_cancel]
        rcases hren.doubled hc with hdouble | hhard
        · rcases hrest with hzero | hpow
          · rw [hzero, Nat.pow_zero, Nat.one_mul]
            exact h.within
          · by_cases hzero : List.countP (fun r => decide (r.1.completePrediction = true))
                ((b.allow c).2.renewalsOf calls) = 0
            · rw [hzero, Nat.pow_zero, Nat.one_mul]
              exact h.within
            · obtain ⟨m, hm⟩ := Nat.exists_eq_succ_of_ne_zero hzero
              rw [hm] at hpow ⊢
              calc 2 ^ (m + 1) * b.granted.toNat = 2 ^ m * (2 * b.granted.toNat) := by
                    rw [Nat.pow_succ, Nat.mul_assoc]
                _ ≤ 2 ^ m * (b.allow c).2.granted.toNat := Nat.mul_le_mul_left _ hdouble
                _ ≤ _ := by simpa using hpow
        · -- the grant reaches the end of the allowance
          have hend := remaining_eq (UInt64.le_trans hstart h.head) hren.opened
          have hnowc := UInt64.le_iff_toNat_le.mp h.head
          have hfull : (b.allow c).2.renewalsOf calls = [] := by
            refine renewalsOf_exhausted h.tail ?_
            rw [hhard, hframe.1, hframe.2]
            omega
          rw [hfull, List.countP_nil, Nat.pow_zero, Nat.one_mul]
          exact h.within

theorem length_eq_knowns_add_unknowns :
    renewals.length = knowns renewals + unknowns renewals := by
  rw [List.length_eq_countP_add_countP (fun r => decide (r.1.completePrediction = true))]
  congr 1
  refine List.countP_congr fun r _ => ?_
  cases r.1.completePrediction <;> simp

theorem length_renewalsOf_granted (hstart : b.allowance.startedNs ≤ b.started)
    (h : Timely b calls) (hpos : 0 < b.granted.toNat) :
    (b.renewalsOf calls).length ≤ 65 := by
  have hunknown : unknowns (b.renewalsOf calls) ≤ 1 :=
    (unknowns_le b calls).trans (by split <;> omega)
  have hend : b.allowance.endNs < 2 ^ 64 :=
    lt_of_le_of_lt (Nat.min_le_right _ _) b.allowance.controlDeadlineNs.toNat_lt
  have hknown : knowns (b.renewalsOf calls) ≤ 64 := by
    rcases knowns_doubling hstart h with hzero | hpow
    · omega
    · have hlt : 2 ^ (knowns (b.renewalsOf calls) - 1) < 2 ^ 64 := by
        calc 2 ^ (knowns (b.renewalsOf calls) - 1)
            ≤ 2 ^ (knowns (b.renewalsOf calls) - 1) * b.granted.toNat :=
              Nat.le_mul_of_pos_right _ hpos
          _ < 2 ^ 64 := by omega
      have := (Nat.pow_lt_pow_iff_right (by decide)).mp hlt
      omega
  rw [length_eq_knowns_add_unknowns]
  omega

/-- A search that starts no earlier than its allowance gets few renewals. -/
theorem length_renewalsOf_le (hstart : b.allowance.startedNs ≤ b.started) (h : Timely b calls) :
    (b.renewalsOf calls).length ≤ 66 := by
  induction calls generalizing b with
  | nil => exact Nat.zero_le _
  | cons c calls ih =>
    have hframe := allow_frame b c
    have hstart' : (b.allow c).2.allowance.startedNs ≤ (b.allow c).2.started := by
      rwa [hframe.1, hframe.2]
    rcases kept_or_renewed b c with ⟨hno, -⟩ | ⟨hyes, hren⟩
    · rw [renewalsOf_kept hno]
      exact ih hstart' h.tail
    · rw [renewalsOf_renewed hyes, List.length_cons]
      have := length_renewalsOf_granted hstart' h.tail (Nat.zero_lt_of_lt hren.grown)
      omega

/-! ## The discipline -/

/-- What a search that started at `started` under the allowance `a` gets from its calls: every
    granted call fits into its grant, the grant never shrinks nor outlives the allowance, and
    renewals are bounded, worth their time and, but at a multiple of the counter's period, gated by
    progress. -/
theorem search_budget_discipline (a : PlanningAllowance) (cancelled : Bool)
    (started initialCost : UInt64) (calls : List AllowCall)
    (htimes : List.IsChain (· ≤ ·) (started :: calls.map (·.now))) :
    let b := new a cancelled started initialCost
    (∀ before c rest, calls = before ++ c :: rest →
      ((b.after before).allow c).1 = true →
        (c.now.toNat - started.toNat) + max 1 c.nextOperationNs.toNat ≤
          (b.after (before ++ [c])).granted.toNat) ∧
    (∀ before rest, calls = before ++ rest →
      (b.after before).granted.toNat ≤ a.endNs - started.toNat ∧
      (b.after before).granted.toNat ≤ (b.after calls).granted.toNat) ∧
    unknowns (b.renewalsOf calls) ≤ 1 ∧
    (∀ r ∈ b.renewalsOf calls, (r.1.completePrediction = false → r.2 ≤ 5000000) ∧
      r.1.completionNs.toNat ≤ r.1.gainNs.toNat / 20 / max 1 a.affectedRequests.toNat) ∧
    List.IsChain (· < ·) (((b.renewalsOf calls).take renewalPeriod).map (·.1.progress)) ∧
    (∀ i r r', (b.renewalsOf calls)[i]? = some r → (b.renewalsOf calls)[i + 1]? = some r' →
      (i + 1) % renewalPeriod ≠ 0 → r.1.progress < r'.1.progress) ∧
    (a.startedNs ≤ started → (b.renewalsOf calls).length ≤ 66 ∧
      List.IsChain (· < ·) ((b.renewalsOf calls).map (·.1.progress))) := by
  intro b
  have hnow : ∀ c ∈ calls, started ≤ c.now := fun c hc =>
    (List.pairwise_cons.mp (List.isChain_iff_pairwise.mp htimes)).1 c.now
      (List.mem_map_of_mem hc)
  have hwithin := within_new a cancelled started initialCost
  have hchain := isChain_progress (b := b) rfl calls
  refine ⟨?_, ?_, unknowns_le b calls, ?_, hchain,
    fun i r r' hr hr' hi => progress_lt (b := b) rfl calls hr hr' hi, fun hstart => ?_⟩
  · rintro before c rest rfl hyes
    have hfit := fits_of_allow hyes
    rw [(after_frame b before).2] at hfit
    unfold AllowCall.next at hfit
    rw [UInt64.toNat_max] at hfit
    rw [after_append]
    exact hfit
  · rintro before rest rfl
    have hle := Timely.after ⟨hwithin, fun c hc => hnow c (List.mem_append_left rest hc)⟩
    unfold Within at hle
    rw [(after_frame _ before).1, (after_frame _ before).2] at hle
    exact ⟨hle, by rw [after_append]; exact granted_le_after _ rest⟩
  · intro r hr
    have hworth := renewal_worth hr
    refine ⟨hworth.2, le_trans ?_ hworth.1⟩
    unfold AllowCall.completion
    rw [UInt64.toNat_max]
    exact Nat.le_max_right _ _
  · have hlen := length_renewalsOf_le (b := b) hstart ⟨hwithin, hnow⟩
    refine ⟨hlen, ?_⟩
    rwa [List.take_of_length_le (hlen.trans (by decide))] at hchain

/-- Three calls: one within the first grant, one that renews it, one that is refused. -/
theorem search_budget_discipline_three :
    List.IsChain (· ≤ ·) ((1000 : UInt64) :: [1000, 5000000, 5000000]) ∧
    unknowns ((new { startedNs := 0 } false 1000 1000000000).renewalsOf
      [{ now := 1000, nextOperationNs := 1000, completionNs := 1000, gainNs := 1000000000,
         completePrediction := true, progress := 0 },
       { now := 5000000, nextOperationNs := 4000000, completionNs := 4000000,
         gainNs := 1000000000, completePrediction := false, progress := 1 },
       { now := 5000000, nextOperationNs := 9000000, completionNs := 9000000,
         gainNs := 1000000000, completePrediction := false, progress := 2 }]) ≤ 1 :=
  ⟨by decide, (search_budget_discipline _ _ _ _ _ (by decide)).2.2.1⟩

/-! ## The counter wraps -/

/-- An allowance that begins long after the search: each nanosecond leaves room for one more
    renewal. -/
def lateAllowance : PlanningAllowance := { startedNs := 1099511627776, limitNs := 10 }

/-- A call at the time `k`. -/
def lateCall (k : Nat) (progress : UInt64) : AllowCall :=
  { now := UInt64.ofNat k
    nextOperationNs := 10
    completionNs := 10
    gainNs := 1000
    completePrediction := true
    progress }

/-- One call a nanosecond from `k` on, each with more progress than the one before, and a last one
    with no progress at all. -/
def lateCalls (k n : Nat) : List AllowCall :=
  (List.range' k n).map (fun k => lateCall k (UInt64.ofNat (k + 1))) ++ [lateCall (k + n) 0]

theorem lateCalls_succ (k n : Nat) :
    lateCalls k (n + 1) = lateCall k (UInt64.ofNat (k + 1)) :: lateCalls (k + 1) n := by
  unfold lateCalls
  rw [List.range'_succ, List.map_cons, List.cons_append, show k + (n + 1) = k + 1 + n by omega]

/-- The budget before the call at the time `k`. -/
structure Late (b : MaterializationSearchBudget) (k : Nat) : Prop where
  allowance : b.allowance = lateAllowance
  started : b.started = 0
  granted : b.granted.toNat = if k = 0 then 0 else k + 9
  renewals : b.renewals = UInt32.ofNat k
  progress : b.renewalProgress.toNat = k

theorem late_new : Late (new lateAllowance false 0 0) 0 := by
  constructor <;> rfl

theorem lateCall_now (hk : k ≤ renewalPeriod) (progress : UInt64) :
    (lateCall k progress).now.toNat = k := by
  unfold renewalPeriod at hk
  exact UInt64.toNat_ofNat_of_lt' (by show k < 2 ^ 64; omega)

theorem Late.remaining (h : Late b k) (hk : k ≤ renewalPeriod) (progress : UInt64) :
    b.allowance.remaining false (lateCall k progress).now = 10 := by
  have hnow := lateCall_now hk progress
  unfold renewalPeriod at hk
  have hopen : ¬ (false = true ∨ lateAllowance.controlDeadlineNs ≤ (lateCall k progress).now) := by
    rw [UInt64.le_iff_toNat_le, hnow]
    show ¬ (false = true ∨ 18446744073709551615 ≤ k)
    simp
    omega
  rw [← UInt64.toNat_inj, remaining_toNat, h.allowance, if_neg hopen, hnow]
  show min (10 - (k - 1099511627776)) (18446744073709551615 - k) = 10
  omega

theorem Late.added (h : Late b k) (hk : k ≤ renewalPeriod) (progress : UInt64) :
    (b.added (lateCall k progress)).toNat = if k = 0 then 10 else 1 := by
  have hstarted : b.started.toNat = 0 := by rw [h.started]; rfl
  rw [added_toNat]
  show min (max b.granted.toNat 10) ((lateCall k progress).now.toNat - b.started.toNat +
    (b.allowance.remaining false (lateCall k progress).now).toNat - b.granted.toNat) = _
  rw [h.remaining hk, lateCall_now hk, hstarted, h.granted]
  show min _ (k - 0 + 10 - _) = _
  split_ifs <;> omega

/-- Each of the calls is granted a renewal, if it passes the gate. -/
theorem Late.renewed {progress : UInt64} (h : Late b k) (hk : k ≤ renewalPeriod)
    (hgate : b.renewals ≠ 0 → b.renewalProgress < progress) :
    Renewed b (lateCall k progress) (b.allow (lateCall k progress)).2 := by
  have hnow := lateCall_now hk progress
  have hremaining := h.remaining hk progress
  have hadded := h.added hk progress
  have hgranted := h.granted
  have hstarted : b.started.toNat = 0 := by rw [h.started]; rfl
  have hsum : (b.granted + b.added (lateCall k progress)).toNat = k + 10 := by
    unfold renewalPeriod at hk
    rw [UInt64.toNat_add, hgranted, hadded]
    split_ifs <;> omega
  have hreach : (b.elapsed (lateCall k progress).now + 10).toNat = k + 10 := by
    unfold renewalPeriod at hk
    rw [UInt64.toNat_add, elapsed_toNat, hnow, hstarted]
    show (k - 0 + 10) % 2 ^ 64 = _
    omega
  have hyes : (b.allow (lateCall k progress)).1 = true := by
    unfold allow
    dsimp only
    split_ifs with h1 h2 h3 h4 h5 h6
    · have h1' : b.allowance.remaining false (lateCall k progress).now < 10 := h1
      rw [hremaining] at h1'
      exact absurd h1' (by decide)
    · rfl
    · have h3' : b.allowance.remaining false (lateCall k progress).now < 10 ∨
          economic b.allowance 1000 < 10 := h3
      rw [hremaining, h.allowance] at h3'
      exact absurd h3' (by decide)
    · exact absurd h4.1 (by simp [lateCall])
    · exact absurd (hgate h5.1) (UInt64.not_lt.mpr h5.2)
    · have h6' : b.added (lateCall k progress) = 0 ∨ b.granted + b.added (lateCall k progress) <
            b.elapsed (lateCall k progress).now + 10 := h6
      rw [UInt64.lt_iff_toNat_lt, hsum, hreach] at h6'
      rcases h6' with hzero | hshort
      · rw [hzero, UInt64.toNat_zero] at hadded
        split_ifs at hadded
      · exact absurd hshort (Nat.lt_irrefl _)
    · rfl
  rcases allow_cases b (lateCall k progress) with ⟨hno, -⟩ | ⟨-, -, hfit⟩ | ⟨-, hrenewed⟩
  · rw [hyes] at hno
    cases hno
  · -- the grant is one nanosecond short
    have hten : (lateCall k progress).next.toNat = 10 := rfl
    rw [hnow, hstarted, hten, hgranted] at hfit
    split_ifs at hfit <;> omega
  · exact hrenewed

/-- A renewal at the time `k` brings the grant to `k + 10`. -/
theorem Late.granted_renewed {progress : UInt64} (h : Late b k) (hk : k ≤ renewalPeriod)
    (hr : Renewed b (lateCall k progress) t) : t.granted.toNat = k + 10 := by
  have hlow := hr.covers
  have hhigh := hr.bounded
  have hstarted : b.started.toNat = 0 := by rw [h.started]; rfl
  have hnext : (lateCall k progress).next.toNat = 10 := rfl
  have hremaining : (b.allowance.remaining (lateCall k progress).cancelled
      (lateCall k progress).now).toNat = 10 := congrArg UInt64.toNat (h.remaining hk progress)
  rw [lateCall_now hk, hstarted] at hlow hhigh
  omega

theorem Late.next {k : Nat} (h : Late b k) (hk : k < renewalPeriod) :
    Renewed b (lateCall k (UInt64.ofNat (k + 1))) (b.allow (lateCall k (UInt64.ofNat (k + 1)))).2 ∧
      Late (b.allow (lateCall k (UInt64.ofNat (k + 1)))).2 (k + 1) := by
  have hprogress : (UInt64.ofNat (k + 1)).toNat = k + 1 := by
    unfold renewalPeriod at hk
    exact UInt64.toNat_ofNat_of_lt' (by show k + 1 < 2 ^ 64; omega)
  have hr : Renewed b (lateCall k (UInt64.ofNat (k + 1))) _ := h.renewed hk.le fun _ => by
    rw [UInt64.lt_iff_toNat_lt, h.progress, hprogress]
    omega
  refine ⟨hr, hr.allowance.trans h.allowance, hr.started.trans h.started, ?_, ?_, ?_⟩
  · rw [h.granted_renewed hk.le hr, if_neg (Nat.succ_ne_zero k)]
  · rw [hr.renewals, h.renewals, UInt32.ofNat_add]
    rfl
  · rw [hr.progress]
    exact hprogress

/-- Whatever came before, the last renewal is granted for no progress. -/
theorem Late.renewalsOf (h : Late b k) (hn : k + n = renewalPeriod) :
    ∃ l, (b.renewalsOf (lateCalls k n)).map (·.1.progress) = l ++ [0] ∧ n ≤ l.length := by
  induction n generalizing b k with
  | zero =>
    have hzero : b.renewals = 0 := by
      rw [h.renewals, show k = renewalPeriod from hn]
      rfl
    have hr : Renewed b (lateCall k 0) _ := h.renewed hn.le fun hne => absurd hzero hne
    refine ⟨[], ?_, le_rfl⟩
    show (b.renewalsOf [lateCall k 0]).map (·.1.progress) = [0]
    rw [renewalsOf_renewed (UInt64.lt_iff_toNat_lt.mpr hr.grown)]
    rfl
  | succ n ih =>
    have hr := h.next (by omega)
    obtain ⟨l, hl, hlen⟩ := ih hr.2 (by omega)
    rw [lateCalls_succ, renewalsOf_renewed (UInt64.lt_iff_toNat_lt.mpr hr.1.grown),
      List.map_cons, hl]
    exact ⟨UInt64.ofNat (k + 1) :: l, rfl, Nat.succ_le_succ hlen⟩

theorem isChain_lateCalls (hn : k + n ≤ renewalPeriod) :
    List.IsChain (· ≤ ·) (UInt64.ofNat k :: (lateCalls k n).map (·.now)) := by
  induction n generalizing k with
  | zero => exact List.isChain_cons_cons.mpr ⟨UInt64.le_refl _, List.isChain_singleton _⟩
  | succ n ih =>
    have hstep : UInt64.ofNat k ≤ UInt64.ofNat (k + 1) := by
      have hk := lateCall_now (show k ≤ renewalPeriod by omega) 0
      have hk' := lateCall_now (show k + 1 ≤ renewalPeriod by omega) 0
      exact hk.trans_le ((Nat.le_succ k).trans_eq hk'.symm)
    have hrest := ih (k := k + 1) (by omega)
    rw [List.isChain_iff_pairwise, List.pairwise_cons] at hrest
    rw [lateCalls_succ, List.map_cons]
    refine List.isChain_cons_cons.mpr ⟨UInt64.le_refl _, ?_⟩
    rw [List.isChain_iff_pairwise, List.pairwise_cons]
    exact ⟨fun now hnow => UInt64.le_trans hstep (hrest.1 now hnow), hrest.2⟩

/-- Progress is not gated over all renewals: an allowance that begins after the search may be
    renewed until the counter is zero again. -/
theorem progress_ungated_after_wrap :
    ¬ ∀ (a : PlanningAllowance) (cancelled : Bool) (started initialCost : UInt64)
        (calls : List AllowCall), List.IsChain (· ≤ ·) (started :: calls.map (·.now)) →
      List.IsChain (· < ·)
        (((new a cancelled started initialCost).renewalsOf calls).map (·.1.progress)) := by
  intro h
  have hchain := h lateAllowance false 0 0 (lateCalls 0 renewalPeriod)
    (isChain_lateCalls (Nat.zero_add _).le)
  obtain ⟨l, hl, hlen⟩ := late_new.renewalsOf (n := renewalPeriod) (Nat.zero_add _)
  have hne : l ≠ [] := by
    rintro rfl
    exact absurd hlen (by decide)
  rw [hl, List.isChain_append] at hchain
  have hlast := hchain.2.2 (l.getLast hne) (List.getLast?_eq_some_getLast hne) 0 rfl
  exact absurd (UInt64.lt_iff_toNat_lt.mp hlast) (Nat.not_lt_zero _)

end MaterializationSearchBudget

end Ninfer.Planner
