/-
  KV page geometries and the packed Host record planned for one (`plan_host_kv_page_layout`,
  `src/core/host_kv_arena.cpp`; the geometry types of `src/core/paged_kv_cache.h`).

  Sizes are `std::size_t`, so every sum and product is checked against 64 bits. The one fact the
  arena needs is at the end: a planned record has a positive stride.

  Left out: the transfer-cost plans (`plan_host_kv_transfer_work`, `plan_device_kv_copy_work`).
-/
import Ninfer.Lib.Fallible

namespace Ninfer

open Lib

/-- `std::numeric_limits<std::size_t>::max()`. -/
def maxU64 : Nat := 2 ^ 64 - 1

inductive DType where
  | bf16
  | fp32
  | i32
  | u8
  | i64
  | i8
  | fp16
  | fp8E4M3FN
  deriving DecidableEq

def dtypeSize : DType → Nat
  | .bf16 => 2
  | .fp32 => 4
  | .i32 => 4
  | .u8 => 1
  | .i64 => 8
  | .i8 => 1
  | .fp16 => 2
  | .fp8E4M3FN => 1

structure KVPlaneGeometry where
  dtype : DType := .bf16
  leadingExtent : Int := 0
  headExtent : Int := 0
  alignment : Nat := 256
  deriving DecidableEq

inductive PagedKVPlaneOrder where
  | pageMajor
  | headMajor
  deriving DecidableEq

structure KVPageGeometry where
  pageTokens : Nat := 64
  devicePlaneOrder : PagedKVPlaneOrder := .pageMajor
  planes : List KVPlaneGeometry
  deriving DecidableEq

structure HostKVPlaneLayout where
  offset : Nat := 0
  pagePayloadBytes : Nat := 0
  headPayloadBytes : Nat := 0
  deriving DecidableEq

structure HostKVPageLayout where
  geometry : KVPageGeometry
  planes : List HostKVPlaneLayout
  pageStride : Nat
  deriving DecidableEq

def hostKVAlignment : Nat := 256

def checkedAdd (a b : Nat) (label : String) : Except Fault Nat :=
  if b > maxU64 - a then .error (.overflowError label) else .ok (a + b)

def checkedMul (a b : Nat) (label : String) : Except Fault Nat :=
  if b ≠ 0 ∧ a > maxU64 / b then .error (.overflowError label) else .ok (a * b)

/-- The mask arithmetic of the source rounds up to a multiple of the power of two. -/
def alignUp (value alignment : Nat) (label : String) : Except Fault Nat :=
  if alignment = 0 ∨ alignment &&& (alignment - 1) ≠ 0 then
    .error (.invalidArgument (label ++ " alignment must be a power of two"))
  else if value > maxU64 - (alignment - 1) then
    .error (.overflowError (label ++ " alignment overflow"))
  else .ok ((value + (alignment - 1)) / alignment * alignment)

/-- One iteration of the planning loop, on the planes planned so far and the cursor. -/
def planPlane (pageTokens : Nat) (acc : List HostKVPlaneLayout × Nat) (plane : KVPlaneGeometry) :
    Except Fault (List HostKVPlaneLayout × Nat) := do
  if plane.leadingExtent ≤ 0 ∨ plane.headExtent ≤ 0 then
    .error (.invalidArgument "Host KV plane geometry must be positive")
  let cursor ← alignUp acc.2 hostKVAlignment "Host KV plane"
  let headBytes ← checkedMul
    (← checkedMul plane.leadingExtent.toNat pageTokens "Host KV head payload overflow")
    (dtypeSize plane.dtype) "Host KV head payload overflow"
  let pageBytes ← checkedMul headBytes plane.headExtent.toNat "Host KV plane payload overflow"
  let next ← checkedAdd cursor pageBytes "Host KV page payload overflow"
  return (acc.1 ++ [⟨cursor, pageBytes, headBytes⟩], next)

def planHostKVPageLayout (geometry : KVPageGeometry) : Except Fault HostKVPageLayout := do
  if geometry.pageTokens = 0 ∨ geometry.planes = [] then
    .error (.invalidArgument "Host KV page geometry is empty")
  let (planes, cursor) ← geometry.planes.foldlM (planPlane geometry.pageTokens) ([], 0)
  let pageStride ← alignUp cursor hostKVAlignment "Host KV page record"
  return ⟨geometry, planes, pageStride⟩

/-! ## A planned record is not empty -/

variable {a b c pageTokens : Nat} {label : String} {acc out : List HostKVPlaneLayout × Nat}

theorem checkedMul_ok (h : checkedMul a b label = .ok c) : c = a * b := by
  unfold checkedMul at h
  split at h
  · cases h
  · exact (Except.ok.inj h).symm

theorem checkedAdd_ok (h : checkedAdd a b label = .ok c) : c = a + b := by
  unfold checkedAdd at h
  split at h
  · cases h
  · exact (Except.ok.inj h).symm

theorem le_of_alignUp {value alignment r : Nat} (h : alignUp value alignment label = .ok r) :
    value ≤ r := by
  unfold alignUp at h
  split at h
  · cases h
  next hpow =>
    split at h
    · cases h
    next =>
      obtain rfl := Except.ok.inj h
      have hpos : 0 < alignment := by omega
      have hdiv := Nat.div_add_mod' (value + (alignment - 1)) alignment
      have hmod := Nat.mod_lt (value + (alignment - 1)) hpos
      omega

theorem dtypeSize_pos (dtype : DType) : 0 < dtypeSize dtype := by
  cases dtype <;> decide

/-- The cursor moves past a payload of at least one byte. -/
theorem planPlane_pos {plane : KVPlaneGeometry} (ht : 0 < pageTokens)
    (h : planPlane pageTokens acc plane = .ok out) : 0 < out.2 := by
  unfold planPlane at h
  split at h
  · obtain ⟨_, h, -⟩ := bind_eq_ok h
    cases h
  next hext =>
    obtain ⟨cursor, -, h⟩ := bind_eq_ok h
    obtain ⟨tokens, htokens, h⟩ := bind_eq_ok h
    obtain ⟨headBytes, hhead, h⟩ := bind_eq_ok h
    obtain ⟨pageBytes, hpage, h⟩ := bind_eq_ok h
    obtain ⟨next, hnext, h⟩ := bind_eq_ok h
    obtain rfl := Except.ok.inj h
    rw [checkedAdd_ok hnext, checkedMul_ok hpage, checkedMul_ok hhead, checkedMul_ok htokens]
    have hlead : 0 < plane.leadingExtent.toNat := by omega
    have hheads : 0 < plane.headExtent.toNat := by omega
    have hpayload := Nat.mul_pos (Nat.mul_pos (Nat.mul_pos hlead ht) (dtypeSize_pos plane.dtype))
      hheads
    omega

theorem planPlanes_pos {planes : List KVPlaneGeometry} (ht : 0 < pageTokens)
    (hpos : planes ≠ [] ∨ 0 < acc.2) (h : planes.foldlM (planPlane pageTokens) acc = .ok out) :
    0 < out.2 := by
  induction planes generalizing acc with
  | nil =>
    obtain rfl := Except.ok.inj h
    simpa using hpos
  | cons plane planes ih =>
    obtain ⟨mid, hmid, h⟩ := bind_eq_ok h
    exact ih (.inr (planPlane_pos ht hmid)) h

theorem pageStride_pos {geometry : KVPageGeometry} {layout : HostKVPageLayout}
    (h : planHostKVPageLayout geometry = .ok layout) : 0 < layout.pageStride := by
  unfold planHostKVPageLayout at h
  split at h
  · obtain ⟨_, h, -⟩ := bind_eq_ok h
    cases h
  next hne =>
    push Not at hne
    obtain ⟨⟨planes, cursor⟩, hplanes, h⟩ := bind_eq_ok h
    obtain ⟨stride, hstride, h⟩ := bind_eq_ok h
    obtain rfl := Except.ok.inj h
    have hcursor := planPlanes_pos (Nat.pos_of_ne_zero hne.1) (.inl hne.2) hplanes
    have := le_of_alignUp hstride
    dsimp only at hcursor ⊢
    omega

end Ninfer
