/-
  `HostKVArena` (`src/core/host_kv_arena.cpp`): variable-size allocations of whole pages out of
  one pinned buffer.

  The descriptor vector is a function with its length beside it; the stack of free descriptors is
  a list, top first; the free extents are a list of `Span`s (`offset` and `bytes` of the source
  are `start` and `size`). `std::lower_bound` on the sorted extents is the partition point.

  A `HostKVAllocation` is move-only in the source and releases its descriptor when destroyed. Here
  it is its three fields; whoever holds one says when it is released.

  Left out: the bytes themselves and the views on them.
-/
import Ninfer.Lib.Spans
import Ninfer.Core.Handle
import Ninfer.Core.PageLayout

namespace Ninfer

open Lib Function

namespace HostKV

/-- `HostKVArena::Descriptor`. -/
structure Descriptor where
  offset : Nat := 0
  bytes : Nat := 0
  layout : Nat := 0
  pages : Nat := 0
  generation : Nat := 1
  active : Bool := false
  deriving DecidableEq

end HostKV

abbrev HostKVAllocationHandle := Handle HostKV.Descriptor

abbrev HostKVAllocation := Handle HostKV.Descriptor

namespace HostKV

/-- `HostKVAllocationRecipe::Target`. -/
structure Target where
  layout : Nat
  pages : Nat
  offset : Nat
  bytes : Nat

end HostKV

structure HostKVAllocationRecipe where
  owner : Option Nat
  arenaRevision : Nat
  releases : List HostKVAllocationHandle
  targets : List HostKV.Target

structure HostKVArena where
  id : Nat
  capacityBytes : Nat
  occupiedBytes : Nat := 0
  layouts : List HostKVPageLayout
  descriptorCount : Nat := 0
  descriptors : Nat → HostKV.Descriptor := fun _ => {}
  freeDescriptors : List Nat := []
  freeExtents : List Span := []
  revision : Nat := 1

namespace HostKVArena

open HostKV

/-! ## Construction -/

/-- The validation loop, with the layouts already seen. -/
def checkLayouts (previous : List HostKVPageLayout) : List HostKVPageLayout → Except Fault Unit
  | [] => .ok ()
  | layout :: rest => do
    let planned ← planHostKVPageLayout layout.geometry
    if planned ≠ layout then
      .error (.invalidArgument "Host KV arena received an inconsistent page layout")
    else if layout ∈ previous then
      .error (.invalidArgument "Host KV arena contains a duplicate page layout")
    else checkLayouts (previous ++ [layout]) rest

/-- `std::min_element` by stride; only its stride is used. -/
def smallestStride (first : HostKVPageLayout) (rest : List HostKVPageLayout) : Nat :=
  rest.foldl (fun m layout => min m layout.pageStride) first.pageStride

/-- The constructor; `pinned` is whether the pinned buffer could be allocated. -/
def init (id capacityBytes : Nat) (layouts : List HostKVPageLayout) (pinned : Bool) :
    Except Fault HostKVArena := do
  checkLayouts [] layouts
  if capacityBytes = 0 then return { id, capacityBytes := 0, layouts }
  else
    match layouts with
    | [] => .error (.invalidArgument "Non-empty Host KV arena requires supported page layouts")
    | first :: rest =>
      let maximumDescriptors := capacityBytes / smallestStride first rest
      if pinned = false then .error .device
      else if maximumDescriptors > maxU32 then
        .error (.overflowError "Host KV arena descriptor capacity exceeds uint32")
      else return {
        id
        capacityBytes
        layouts
        descriptorCount := maximumDescriptors
        freeDescriptors := List.range maximumDescriptors
        freeExtents := [⟨0, capacityBytes⟩] }

/-! ## Allocation -/

def findLayout (s : HostKVArena) (layout : HostKVPageLayout) : Option Nat :=
  s.layouts.findIdx? (· = layout)

def findFreeExtent (extents : List Span) (bytes : Nat) : Option Nat :=
  extents.findIdx? (bytes ≤ ·.size)

/-- Take `bytes` from the front of the extent `index`, and erase it when nothing is left. -/
def takeFront (extents : List Span) (index bytes : Nat) : List Span :=
  match extents[index]? with
  | none => extents
  | some free =>
    if free.size - bytes = 0 then extents.eraseIdx index
    else extents.set index ⟨free.start + bytes, free.size - bytes⟩

/-- `maxU32` when the stack is empty. -/
def takeDescriptor : Eff HostKVArena Nat := fun s =>
  match s.freeDescriptors with
  | [] => .ok maxU32 s
  | index :: rest => .ok index { s with freeDescriptors := rest }

/-- Assignments through the reference `descriptors_[index]`. -/
def setDescriptor (index : Nat) (f : Descriptor → Descriptor) : Eff HostKVArena Unit :=
  Eff.modify fun s => { s with descriptors := update s.descriptors index (f (s.descriptors index)) }

def bumpRevision : Eff HostKVArena Unit :=
  Eff.modify fun s => { s with revision := nextEpoch s.revision }

def validHandle (s : HostKVArena) (h : HostKVAllocationHandle) : Prop :=
  h.owner = some s.id ∧ h.index < s.descriptorCount ∧ (s.descriptors h.index).active = true ∧
    (s.descriptors h.index).generation = h.generation
  deriving Decidable

def allocate (layout : HostKVPageLayout) (pages : Nat) :
    Eff HostKVArena (Option HostKVAllocation) := do
  let s ← Eff.get
  match s.findLayout layout with
  | none => return none
  | some layoutIndex =>
    if pages = 0 ∨ s.freeDescriptors = [] ∨ layout.pageStride > maxU64 / pages then return none
    else
      let bytes := layout.pageStride * pages
      match findFreeExtent s.freeExtents bytes with
      | none => return none
      | some freeIndex =>
        let index ← takeDescriptor
        if index = maxU32 then return none
        else
          let free ← Eff.deref s.freeExtents[freeIndex]?
          Eff.modify fun s => { s with freeExtents := takeFront s.freeExtents freeIndex bytes }
          setDescriptor index fun d => { d with
            offset := free.start
            bytes
            layout := layoutIndex
            pages
            active := true }
          Eff.modify fun s => { s with occupiedBytes := s.occupiedBytes + bytes }
          bumpRevision
          let s ← Eff.get
          return some ⟨some s.id, index, (s.descriptors index).generation⟩

/-! ## Release and split -/

def insertFreeExtent (extent : Span) : Eff HostKVArena Unit :=
  Eff.modify fun s => { s with freeExtents := Spans.insert s.freeExtents extent }

def releaseDescriptor (index generation : Nat) : Eff HostKVArena Bool := do
  let s ← Eff.get
  if s.descriptorCount ≤ index then return false
  else
    let d := s.descriptors index
    if d.active = false ∨ d.generation ≠ generation then return false
    else
      Eff.modify fun s => { s with occupiedBytes := s.occupiedBytes - d.bytes }
      setDescriptor index fun d => { d with
        active := false
        offset := 0
        bytes := 0
        pages := 0
        generation := nextGeneration d.generation }
      Eff.modify fun s => { s with freeDescriptors := index :: s.freeDescriptors }
      insertFreeExtent ⟨d.offset, d.bytes⟩
      bumpRevision
      return true

variable (allocation : HostKVAllocation)

/-- `HostKVAllocation::release`, also run by its destructor. An allocation of another arena is
    released there. -/
def release : Eff HostKVArena Bool := do
  let s ← Eff.get
  if allocation.owner ≠ some s.id then return false
  else releaseDescriptor allocation.index allocation.generation

def split (pageOffset : Nat) :
    Eff HostKVArena (HostKVAllocation × HostKVAllocation) := do
  let s ← Eff.get
  if ¬ s.validHandle allocation then
    Eff.raise (.invalidArgument "Cannot split a stale Host KV allocation")
  let original := s.descriptors allocation.index
  if pageOffset = 0 ∨ original.pages ≤ pageOffset then
    Eff.raise (.outOfRange "Host KV split must leave two non-empty allocations")
  let right ← takeDescriptor
  if right = maxU32 then
    Eff.raise (.logicError "Host KV descriptor capacity invariant was violated")
  let layout ← Eff.deref s.layouts[original.layout]?
  let rightPages := original.pages - pageOffset
  setDescriptor right fun d => { d with
    offset := original.offset + pageOffset * layout.pageStride
    bytes := rightPages * layout.pageStride
    layout := original.layout
    pages := rightPages
    active := true }
  setDescriptor allocation.index fun d => { d with
    generation := nextGeneration d.generation
    pages := pageOffset
    bytes := pageOffset * layout.pageStride }
  bumpRevision
  let s ← Eff.get
  return (⟨some s.id, allocation.index, (s.descriptors allocation.index).generation⟩,
    ⟨some s.id, right, (s.descriptors right).generation⟩)

/-! ## Recipes -/

/-- What `apply_recipe` checks of one target before the first mutation. -/
def targetOk (s : HostKVArena) (output : HostKVAllocation) (target : Target) : Bool :=
  match s.layouts[target.layout]? with
  | none => false
  | some layout =>
    output.owner = none && target.pages ≠ 0 && layout.pageStride ≤ maxU64 / target.pages &&
      layout.pageStride * target.pages = target.bytes

def adoptRelease : Eff HostKVArena Unit := do
  if (← release allocation) = false then Eff.die

def adoptTarget (target : Target) : Eff HostKVArena HostKVAllocation := do
  let s ← Eff.get
  let layout ← Eff.deref s.layouts[target.layout]?
  match ← allocate layout target.pages with
  | none => Eff.die
  | some allocation =>
    let s ← Eff.get
    let d := s.descriptors allocation.index
    if d.offset ≠ target.offset ∨ d.bytes ≠ target.bytes then Eff.die
    else return allocation

/-- `proposedReleases` are pointers, `none` the null one. The adopted allocations replace the
    empty outputs; `none` is the return value false. -/
def applyRecipe (recipe : HostKVAllocationRecipe)
    (proposedReleases : List (Option HostKVAllocation))
    (targetAllocations : List HostKVAllocation) :
    Eff HostKVArena (Option (List HostKVAllocation)) := do
  let s ← Eff.get
  if recipe.owner ≠ some s.id ∨ recipe.arenaRevision ≠ s.revision ∨
      recipe.releases.length ≠ proposedReleases.length ∨
      recipe.targets.length ≠ targetAllocations.length then return none
  else if proposedReleases ≠ recipe.releases.map some ∨
      ¬ ∀ h ∈ recipe.releases, s.validHandle h then
    return none
  else if (targetAllocations.zip recipe.targets).all (fun p => s.targetOk p.1 p.2) = false then
    return none
  else
    Eff.forEach recipe.releases adoptRelease
    let adopted ← Eff.collect recipe.targets adoptTarget
    return some adopted

end HostKVArena

end Ninfer
