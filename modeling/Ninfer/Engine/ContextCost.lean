/-
  The arithmetic of the machine cost model (`runtime/engine/context_cost.cpp`): saturating products
  in two bodies, and the prices of transfers that are coalesced before they are priced.

  Words are natural numbers; the sums of the source stop at the largest word, and `batch_ns` is the
  one input whose bound a result needs. The checks for a direction or phase outside its enumeration
  have no case here. A requirement's units, which no price reads, are left out, and so are the
  prefill prices.
-/
import Ninfer.Core.Handle
import Ninfer.Engine.PrefillWork

namespace Ninfer.Engine

open Function
open Resources (ContextTransferDirection ContextTransferRequirement TransferWork)

def saturatingAdd (left right : Nat) : Nat :=
  if right > maxU64 - left then maxU64 else left + right

def saturatingProduct : Build → Nat → Nat → Nat
  | .msvc, left, right => if left * right / 2 ^ 64 > 0 then maxU64 else left * right % 2 ^ 64
  | .wide, left, right => if left * right > maxU64 then maxU64 else left * right

/-- The product of two words, scaled down by `2^32` and rounded up. -/
def q32Scaled : Build → Nat → Nat
  | .msvc, product =>
    if product / 2 ^ 64 ≥ 2 ^ 32 then maxU64
    else
      let low := product % 2 ^ 64 + (2 ^ 32 - 1)
      let high := product / 2 ^ 64 + low / 2 ^ 64
      if high ≥ 2 ^ 32 then maxU64 else high * 2 ^ 32 % 2 ^ 64 ||| low % 2 ^ 64 / 2 ^ 32
  | .wide, product =>
    if product ≥ maxU64 * 2 ^ 32 then maxU64 else (product + 2 ^ 32 - 1) / 2 ^ 32

def q32ProductNs (build : Build) (coefficient units : Nat) : Nat :=
  if coefficient = 0 ∨ units = 0 then 0 else q32Scaled build (coefficient * units)

inductive MaterializationCopyPhase where
  | pressureToHost
  | candidate
  deriving DecidableEq

structure ContextTransferCost where
  batchNs : Nat := 0
  operationNs : Nat := 0
  nsPerByteQ32 : Nat := 0
  batch_le : batchNs ≤ maxU64 := by decide

structure ContextMachineCostModel where
  transfer : ContextTransferDirection → ContextTransferCost

structure TransferBatchWork where
  phase : MaterializationCopyPhase := .candidate
  direction : ContextTransferDirection := .hostToDevice
  work : TransferWork := {}

/-- `transfer_ns`, with the cost of the direction. -/
def ContextTransferCost.transferNs (build : Build) (cost : ContextTransferCost)
    (work : TransferWork) : Nat :=
  if work.payloadBytes = 0 ∧ work.copyOperations = 0 then 0
  else max
    (saturatingAdd cost.batchNs (saturatingProduct build cost.operationNs work.copyOperations))
    (q32ProductNs build cost.nsPerByteQ32 work.payloadBytes)

def TransferWork.coalesce (work item : TransferWork) : TransferWork where
  payloadBytes := saturatingAdd work.payloadBytes item.payloadBytes
  copyOperations :=
    if work.copyOperations + item.copyOperations > maxU32 then maxU32
    else work.copyOperations + item.copyOperations

/-- Items that are coalesced by a key and then priced key by key. -/
structure Pricing (ι κ : Type) where
  key : ι → κ
  work : ι → TransferWork
  keys : List κ
  cost : κ → ContextTransferCost

namespace Pricing

variable {ι κ : Type} [DecidableEq κ] (p : Pricing ι κ)

def coalesced (items : List ι) : κ → TransferWork :=
  items.foldl (fun slots item =>
    update slots (p.key item) (TransferWork.coalesce (slots (p.key item)) (p.work item)))
    fun _ => {}

/-- The price of one item alone. -/
def itemNs (build : Build) (item : ι) : Nat := (p.cost (p.key item)).transferNs build (p.work item)

def totalNs (build : Build) (items : List ι) : Nat :=
  p.keys.foldl (fun total k =>
    saturatingAdd total ((p.cost k).transferNs build (p.coalesced items k))) 0

end Pricing

def directions : List ContextTransferDirection := [.deviceToHost, .hostToDevice, .deviceToDevice]

namespace ContextMachineCostModel

variable (model : ContextMachineCostModel)

def batchPricing : Pricing TransferBatchWork (MaterializationCopyPhase × ContextTransferDirection)
    where
  key b := (b.phase, b.direction)
  work := (·.work)
  keys := directions.map (.pressureToHost, ·) ++ directions.map (.candidate, ·)
  cost k := model.transfer k.2

def transferBatchesNs (build : Build) (batches : List TransferBatchWork) : Nat :=
  model.batchPricing.totalNs build batches

def requirementPricing : Pricing ContextTransferRequirement ContextTransferDirection where
  key := (·.direction)
  work := (·.work)
  keys := directions
  cost := model.transfer

def priceContextTransferRequirements (build : Build)
    (requirements : List ContextTransferRequirement) : Nat :=
  model.requirementPricing.totalNs build requirements

end ContextMachineCostModel

/-! ## The clamped formulas -/

theorem saturatingAdd_eq {left right : Nat} (h : left ≤ maxU64) :
    saturatingAdd left right = min (left + right) maxU64 := by
  unfold saturatingAdd
  split_ifs <;> omega

theorem saturatingProduct_eq (build : Build) (left right : Nat) :
    saturatingProduct build left right = min (left * right) maxU64 := by
  cases build <;> simp only [saturatingProduct]
  all_goals
    generalize left * right = product
    unfold maxU64
    split_ifs <;> omega

/-- `product / 2^32`, rounded up. -/
def ceilQ32 (product : Nat) : Nat := (product + 2 ^ 32 - 1) / 2 ^ 32

theorem ceilQ32_mono {a b : Nat} (h : a ≤ b) : ceilQ32 a ≤ ceilQ32 b :=
  Nat.div_le_div_right (by omega)

theorem ceilQ32_add_le (a b : Nat) : ceilQ32 (a + b) ≤ ceilQ32 a + ceilQ32 b := by
  unfold ceilQ32
  omega

theorem q32Scaled_eq (build : Build) (product : Nat) :
    q32Scaled build product = min (ceilQ32 product) maxU64 := by
  unfold q32Scaled ceilQ32 maxU64
  cases build <;> dsimp only
  case msvc =>
    split_ifs with hhigh hsum
    · omega
    · omega
    · -- the two halves do not overlap, so that `|` adds them
      have hshift : (product / 2 ^ 64 + (product % 2 ^ 64 + (2 ^ 32 - 1)) / 2 ^ 64) * 2 ^ 32 %
          2 ^ 64 = 2 ^ 32 * (product / 2 ^ 64 + (product % 2 ^ 64 + (2 ^ 32 - 1)) / 2 ^ 64) := by
        omega
      rw [hshift, ← Nat.two_pow_add_eq_or_of_lt (by omega)]
      omega
  case wide => split_ifs <;> omega

theorem q32ProductNs_eq (build : Build) (coefficient units : Nat) :
    q32ProductNs build coefficient units = min (ceilQ32 (coefficient * units)) maxU64 := by
  unfold q32ProductNs
  split_ifs with h
  · rw [Nat.mul_eq_zero.mpr h]
    rfl
  · exact q32Scaled_eq build _

/-- The price of a transfer in exact numbers. -/
def ContextTransferCost.exactNs (cost : ContextTransferCost) (work : TransferWork) : Nat :=
  if work.payloadBytes = 0 ∧ work.copyOperations = 0 then 0
  else max (cost.batchNs + cost.operationNs * work.copyOperations)
    (ceilQ32 (cost.nsPerByteQ32 * work.payloadBytes))

namespace ContextTransferCost

variable (cost : ContextTransferCost) {work work' : TransferWork}

theorem transferNs_eq (build : Build) (work : TransferWork) :
    cost.transferNs build work = min (cost.exactNs work) maxU64 := by
  rw [transferNs, exactNs, saturatingAdd_eq cost.batch_le, saturatingProduct_eq, q32ProductNs_eq]
  generalize maxU64 = top
  split_ifs
  · exact (Nat.zero_min top).symm
  · omega

theorem exactNs_mono (hbytes : work.payloadBytes ≤ work'.payloadBytes)
    (hoperations : work.copyOperations ≤ work'.copyOperations) :
    cost.exactNs work ≤ cost.exactNs work' := by
  have hproduct := Nat.mul_le_mul_left cost.operationNs hoperations
  have hscaled := ceilQ32_mono (Nat.mul_le_mul_left cost.nsPerByteQ32 hbytes)
  unfold exactNs
  split_ifs <;> omega

/-- One transfer of two amounts costs at most two transfers. -/
theorem exactNs_add_le (bytes bytes' operations operations' : Nat) :
    cost.exactNs ⟨bytes + bytes', operations + operations'⟩ ≤
      cost.exactNs ⟨bytes, operations⟩ + cost.exactNs ⟨bytes', operations'⟩ := by
  have hproduct := Nat.mul_add cost.operationNs operations operations'
  have hscaled := ceilQ32_add_le (cost.nsPerByteQ32 * bytes) (cost.nsPerByteQ32 * bytes')
  rw [← Nat.mul_add] at hscaled
  by_cases hnone : bytes = 0 ∧ operations = 0
  · obtain ⟨rfl, rfl⟩ := hnone
    simp only [Nat.zero_add]
    omega
  by_cases hnone' : bytes' = 0 ∧ operations' = 0
  · obtain ⟨rfl, rfl⟩ := hnone'
    simp only [Nat.add_zero]
    omega
  · rw [exactNs, exactNs, exactNs, if_neg hnone, if_neg hnone']
    dsimp only
    split_ifs <;> omega

end ContextTransferCost

/-! ## Coalesced prices -/

theorem foldl_saturatingAdd {κ : Type} (f : κ → Nat) (keys : List κ) {start : Nat}
    (h : start ≤ maxU64) :
    keys.foldl (fun total k => saturatingAdd total (min (f k) maxU64)) start =
      min (start + (keys.map f).sum) maxU64 := by
  induction keys generalizing start with
  | nil => exact (Nat.min_eq_left h).symm
  | cons k keys ih =>
    rw [List.foldl_cons, saturatingAdd_eq h, ih (Nat.min_le_right _ _), List.map_cons,
      List.sum_cons]
    omega

theorem min_sum_le {ι : Type} (f : ι → Nat) (items : List ι) :
    min (items.map f).sum maxU64 ≤ (items.map fun item => min (f item) maxU64).sum := by
  induction items with
  | nil => exact Nat.min_le_left _ _
  | cons item items ih =>
    simp only [List.map_cons, List.sum_cons]
    omega

theorem TransferWork.coalesce_eq {work item : TransferWork} (h : work.payloadBytes ≤ maxU64) :
    TransferWork.coalesce work item = ⟨min (work.payloadBytes + item.payloadBytes) maxU64,
      min (work.copyOperations + item.copyOperations) maxU32⟩ := by
  rw [coalesce, saturatingAdd_eq h, TransferWork.mk.injEq]
  split_ifs <;> omega

namespace Pricing

variable {ι κ : Type} [DecidableEq κ] (p : Pricing ι κ) {items items' : List ι}

/-- What the items of a key add up to. -/
def amount (f : TransferWork → Nat) (items : List ι) (k : κ) : Nat :=
  (items.map fun item => if p.key item = k then f (p.work item) else 0).sum

def amounts (items : List ι) (k : κ) : TransferWork :=
  ⟨p.amount (·.payloadBytes) items k, p.amount (·.copyOperations) items k⟩

theorem foldl_coalesce (items : List ι) (slots : κ → TransferWork) (k : κ)
    (hbytes : (slots k).payloadBytes ≤ maxU64) (hoperations : (slots k).copyOperations ≤ maxU32) :
    items.foldl (fun slots item =>
        update slots (p.key item) (TransferWork.coalesce (slots (p.key item)) (p.work item)))
      slots k =
      ⟨min ((slots k).payloadBytes + p.amount (·.payloadBytes) items k) maxU64,
        min ((slots k).copyOperations + p.amount (·.copyOperations) items k) maxU32⟩ := by
  induction items generalizing slots with
  | nil => simp [amount, hbytes, hoperations]
  | cons item items ih =>
    rw [List.foldl_cons]
    by_cases hk : p.key item = k
    · subst hk
      rw [ih] <;> rw [update_self, TransferWork.coalesce_eq hbytes]
      · simp only [amount, List.map_cons, List.sum_cons, if_true, TransferWork.mk.injEq]
        omega
      · exact Nat.min_le_right _ _
      · exact Nat.min_le_right _ _
    · rw [ih] <;> simp [amount, update_of_ne (Ne.symm hk), hk, hbytes, hoperations]

theorem coalesced_eq (items : List ι) (k : κ) :
    p.coalesced items k = ⟨min (p.amount (·.payloadBytes) items k) maxU64,
      min (p.amount (·.copyOperations) items k) maxU32⟩ := by
  simpa [coalesced] using p.foldl_coalesce items (fun _ => {}) k (Nat.zero_le _) (Nat.zero_le _)

theorem totalNs_eq (build : Build) (items : List ι) : p.totalNs build items =
      min ((p.keys.map fun k => (p.cost k).exactNs (p.coalesced items k)).sum) maxU64 := by
  simp only [totalNs, ContextTransferCost.transferNs_eq]
  rw [foldl_saturatingAdd _ _ (Nat.zero_le _), Nat.zero_add]

/-- The same keys, and no smaller counts. -/
def NoLess (a b : ι) : Prop :=
  p.key a = p.key b ∧ (p.work a).payloadBytes ≤ (p.work b).payloadBytes ∧
    (p.work a).copyOperations ≤ (p.work b).copyOperations

theorem amount_mono {f : TransferWork → Nat} (k : κ)
    (h : List.Forall₂ (fun a b => p.key a = p.key b ∧ f (p.work a) ≤ f (p.work b)) items items') :
    p.amount f items k ≤ p.amount f items' k := by
  induction h with
  | nil => exact Nat.le_refl _
  | cons hhead _ ih =>
    simp only [amount, List.map_cons, List.sum_cons, hhead.1] at ih ⊢
    refine Nat.add_le_add ?_ ih
    split_ifs
    · exact hhead.2
    · exact Nat.le_refl _

theorem sum_exactNs_le (hkeys : p.keys.Nodup) (items : List ι) :
    (p.keys.map fun k => (p.cost k).exactNs (p.amounts items k)).sum ≤
      (items.map fun item => (p.cost (p.key item)).exactNs (p.work item)).sum := by
  induction items with
  | nil =>
    exact Nat.le_of_eq (List.sum_eq_zero (by simp [amounts, amount, ContextTransferCost.exactNs]))
  | cons item items ih =>
    have hitem : ∀ k, (p.cost k).exactNs (p.amounts (item :: items) k) ≤
        (if p.key item = k then (p.cost k).exactNs (p.work item) else 0) +
          (p.cost k).exactNs (p.amounts items k) := by
      intro k
      simp only [amounts, amount, List.map_cons, List.sum_cons]
      split_ifs
      · exact (p.cost k).exactNs_add_le ..
      · simp
    refine (List.sum_le_sum fun k _ => hitem k).trans ?_
    rw [List.sum_map_add, List.map_cons, List.sum_cons]
    refine Nat.add_le_add ?_ ih
    -- the key of the item is among the keys at most once
    rw [← List.sum_toFinset _ hkeys, Finset.sum_ite_eq]
    split_ifs
    · exact Nat.le_refl _
    · exact Nat.zero_le _

/-- What prices of coalesced items promise. -/
structure Lawful (build : Build) (price : List ι → Nat) : Prop where
  order : ∀ items items', items.Perm items' → price items = price items'
  monotone : ∀ items items', List.Forall₂ p.NoLess items items' → price items ≤ price items'
  subadditive : ∀ items, price items ≤ min (items.map (p.itemNs build)).sum maxU64

theorem lawful (build : Build) (hkeys : p.keys.Nodup) : p.Lawful build (p.totalNs build) where
  order items items' h := by
    have hamount : ∀ f k, p.amount f items k = p.amount f items' k := fun f k => (h.map _).sum_eq
    simp [totalNs_eq, coalesced_eq, hamount]
  monotone items items' h := by
    have hbytes := fun k => p.amount_mono (f := (·.payloadBytes)) k
      (h.imp fun _ _ h => ⟨h.1, h.2.1⟩)
    have hoperations := fun k =>
      p.amount_mono (f := (·.copyOperations)) k (h.imp fun _ _ h => ⟨h.1, h.2.2⟩)
    simp only [totalNs_eq, coalesced_eq]
    refine min_le_min_right _ (List.sum_le_sum fun k _ => ?_)
    exact (p.cost k).exactNs_mono (min_le_min_right _ (hbytes k))
      (min_le_min_right _ (hoperations k))
  subadditive items := by
    have hexact : (p.keys.map fun k => (p.cost k).exactNs (p.coalesced items k)).sum ≤
        (items.map fun item => (p.cost (p.key item)).exactNs (p.work item)).sum := by
      refine le_trans (List.sum_le_sum fun k _ => ?_) (p.sum_exactNs_le hkeys items)
      rw [coalesced_eq]
      exact (p.cost k).exactNs_mono (Nat.min_le_left _ _) (Nat.min_le_left _ _)
    have hclamp := min_sum_le (fun item => (p.cost (p.key item)).exactNs (p.work item)) items
    have hitem : p.itemNs build = fun item =>
        min ((p.cost (p.key item)).exactNs (p.work item)) maxU64 :=
      funext fun item => (p.cost (p.key item)).transferNs_eq build (p.work item)
    rw [totalNs_eq, hitem]
    omega

end Pricing

/-- The products are clamped exactly, the two bodies of `make_prefill_work` agree exactly unless
    the whole prompt has `2^64 - 1` tokens, and coalesced transfers are priced independently of
    their order, monotonically and for no more than one by one. -/
theorem cost_arithmetic_is_exact (build : Build) (model : ContextMachineCostModel)
    (left right : Nat) (prefixTokens suffixTokens : UInt64) (items patches chunk : Nat) :
    saturatingProduct build left right = min (left * right) maxU64 ∧
    q32ProductNs build left right = min (ceilQ32 (left * right)) maxU64 ∧
    (makePrefillWork .msvc prefixTokens.toNat suffixTokens.toNat items patches chunk =
        makePrefillWork .wide prefixTokens.toNat suffixTokens.toNat items patches chunk ↔
      suffixTokens.toNat < maxU64 ∨ 0 < prefixTokens.toNat) ∧
    model.batchPricing.Lawful build (model.transferBatchesNs build) ∧
    model.requirementPricing.Lawful build (model.priceContextTransferRequirements build) := by
  refine ⟨saturatingProduct_eq .., q32ProductNs_eq .., ?_, ?_, ?_⟩
  · exact makePrefillWork_agrees_iff (Nat.le_of_lt_succ prefixTokens.toNat_lt)
      (Nat.le_of_lt_succ suffixTokens.toNat_lt) items patches chunk
  · refine model.batchPricing.lawful build ?_
    show (directions.map _ ++ directions.map _).Nodup
    decide
  · refine model.requirementPricing.lawful build ?_
    show directions.Nodup
    decide

/-- The longest suffix after a prefix of one token: both bodies stop at the largest word. -/
theorem cost_arithmetic_is_exact_longest :
    makePrefillWork .msvc 1 maxU64 0 0 1 = makePrefillWork .wide 1 maxU64 0 0 1 :=
  (cost_arithmetic_is_exact .msvc ⟨fun _ => {}⟩ 0 0 1 18446744073709551615 0 0 1).2.2.1.mpr
    (.inr (by decide))

/-- The longest suffix of all: `suffix_tokens + 1` wraps, and one body counts no pairs. -/
theorem prefill_bodies_disagree : (makePrefillWork .msvc 0 maxU64 0 0 1).attentionPairs = 0 ∧
      (makePrefillWork .wide 0 maxU64 0 0 1).attentionPairs = maxU64 := by
  decide

end Ninfer.Engine
