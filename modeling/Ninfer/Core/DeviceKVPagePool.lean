/-
  `DeviceKVPagePool` (`src/core/paged_kv_cache.cpp`): physical KV page groups, handed out as
  leases against reservations.

  The free runs are a list of `Span`s (`begin` and `count` of the source are `start` and
  `size`); the per-page vectors are functions. `std::upper_bound` and `std::lower_bound` on the
  sorted runs are the partition points. Leases and reservations are move-only in the source; here
  an operation takes the object and returns what becomes of it, and an object whose owner is
  empty is a moved-from or released one.

  Left out: the device planes and the copies on them, and the marks of
  `validate_distinct_pages`.
-/
import Ninfer.Lib.Spans
import Ninfer.Core.Handle
import Ninfer.Lib.Eff

namespace Ninfer

open Lib Function

/-- The tag of page handles. -/
inductive DevicePage where
  | tag

abbrev DeviceKVPageHandle := Handle DevicePage

abbrev DeviceKVPageLease := Handle DevicePage

structure DeviceKVPageReservation where
  owner : Option Nat := none
  pages : Nat := 0

/-- A `std::vector<DeviceKVPageLease>`, with its capacity. -/
structure LeaseVector where
  leases : List DeviceKVPageLease := []
  capacity : Nat := 0

structure DeviceKVPagePool where
  id : Nat
  pageGroupCount : Nat
  freePageRuns : List Span
  pageGenerations : Nat → Nat
  pageAllocated : Nat → Bool
  allocatedPages : Nat
  reservedPages : Nat

namespace DeviceKVPagePool

/-- The constructor; `checked_i32` wants the page count positive and within 31 bits. -/
def init (id pageGroupCount : Nat) : Except Fault DeviceKVPagePool :=
  if pageGroupCount = 0 ∨ pageGroupCount > 2 ^ 31 - 1 then
    .error (.invalidArgument "Paged KV physical page count must fit positive int32")
  else
    .ok {
      id
      pageGroupCount
      freePageRuns := [⟨0, pageGroupCount⟩]
      pageGenerations := fun _ => 1
      pageAllocated := fun _ => false
      allocatedPages := 0
      reservedPages := 0 }

variable (s : DeviceKVPagePool)

def capacityPages : Nat := s.pageGroupCount

def availablePages : Nat :=
  s.capacityPages - s.allocatedPages - s.reservedPages

def validHandle (h : DeviceKVPageHandle) : Prop :=
  h.owner = some s.id ∧ h.index < s.capacityPages ∧ s.pageAllocated h.index = true ∧
    s.pageGenerations h.index = h.generation
  deriving Decidable

/-! ## Reservations -/

def reserve (pages : Nat) : Eff DeviceKVPagePool (Option DeviceKVPageReservation) := do
  let s ← Eff.get
  if pages = 0 ∨ pages > s.availablePages then return none
  else
    Eff.modify fun s => { s with reservedPages := s.reservedPages + pages }
    return some ⟨some s.id, pages⟩

def makeEmptyReservation : DeviceKVPageReservation := ⟨some s.id, 0⟩

def canResizeReservation (reservation : DeviceKVPageReservation)
    (newReservedPages : Nat) : Prop :=
  reservation.owner = some s.id ∧ reservation.pages ≤ s.reservedPages ∧
    s.allocatedPages + (s.reservedPages - reservation.pages) + newReservedPages ≤ s.capacityPages
  deriving Decidable

variable (reservation : DeviceKVPageReservation)

def resizeReservation (newReservedPages : Nat) :
    Eff DeviceKVPagePool DeviceKVPageReservation := do
  let s ← Eff.get
  if ¬ s.canResizeReservation reservation newReservedPages then Eff.raise .badAlloc
  else
    Eff.modify fun s => { s with
      reservedPages := s.reservedPages - reservation.pages + newReservedPages }
    return { reservation with pages := newReservedPages }

def releaseReservation (pages : Nat) : Eff DeviceKVPagePool Unit := do
  let s ← Eff.get
  if pages > s.reservedPages then Eff.die
  else Eff.modify fun s => { s with reservedPages := s.reservedPages - pages }

/-- `DeviceKVPageReservation::clear`. -/
def clearReservation :
    Eff DeviceKVPagePool DeviceKVPageReservation := do
  if reservation.owner = none ∨ reservation.pages = 0 then return reservation
  else
    releaseReservation reservation.pages
    return { reservation with pages := 0 }

/-- `DeviceKVPageReservation::release`, also run by its destructor. -/
def dropReservation :
    Eff DeviceKVPagePool DeviceKVPageReservation := do
  if reservation.owner = none then return reservation
  else
    releaseReservation reservation.pages
    return {}

/-! ## The free runs -/

def consumeFreeRun (runIndex start count : Nat) : Eff DeviceKVPagePool Unit := do
  let s ← Eff.get
  match s.freePageRuns[runIndex]? with
  | none => Eff.die
  | some run =>
    if count = 0 ∨ start < run.start ∨ run.stop < start + count then Eff.die
    else Eff.modify fun s => { s with
      freePageRuns := s.freePageRuns.take runIndex ++ Spans.cut run start count ++
        s.freePageRuns.drop (runIndex + 1) }

/-- `release_free_page`: the four ways a page joins the runs on its two sides. -/
def freePage (runs : List Span) (index : Nat) : List Span :=
  let before := runs.takeWhile (·.start < index)
  let after := runs.dropWhile (·.start < index)
  match before.getLast?, after with
  | some left, right :: rest =>
    if left.stop = index ∧ index + 1 = right.start then
      before.dropLast ++ ⟨left.start, left.size + (1 + right.size)⟩ :: rest
    else if left.stop = index then before.dropLast ++ ⟨left.start, left.size + 1⟩ :: right :: rest
    else if index + 1 = right.start then before ++ ⟨index, right.size + 1⟩ :: rest
    else before ++ ⟨index, 1⟩ :: right :: rest
  | some left, [] =>
    if left.stop = index then before.dropLast ++ [⟨left.start, left.size + 1⟩]
    else before ++ [⟨index, 1⟩]
  | none, right :: rest =>
    if index + 1 = right.start then before ++ ⟨index, right.size + 1⟩ :: rest
    else before ++ ⟨index, 1⟩ :: right :: rest
  | none, [] => before ++ [⟨index, 1⟩]

def releasePage (index generation : Nat) : Eff DeviceKVPagePool Unit := do
  let s ← Eff.get
  if s.capacityPages ≤ index then return ()
  else if s.pageAllocated index = false ∨ s.pageGenerations index ≠ generation then return ()
  else Eff.modify fun s => { s with
    pageAllocated := update s.pageAllocated index false
    pageGenerations := update s.pageGenerations index (nextGeneration (s.pageGenerations index))
    freePageRuns := freePage s.freePageRuns index
    allocatedPages := s.allocatedPages - 1 }

/-- `DeviceKVPageLease::release`, also run by its destructor. A lease of another pool is
    released there. -/
def releaseLease (lease : DeviceKVPageLease) : Eff DeviceKVPagePool Bool := do
  let s ← Eff.get
  if ¬ s.validHandle lease then return false
  else
    releasePage lease.index lease.generation
    return true

/-! ## Materialization -/

/-- The run that holds `[preferred, preferred + count)`, found by `std::upper_bound`. -/
def preferredRun (runs : List Span) (preferred count : Nat) : Option Nat :=
  let upper := (runs.takeWhile (·.start ≤ preferred)).length
  if upper = 0 then none
  else
    match runs[upper - 1]? with
    | none => none
    | some candidate =>
      if candidate.start ≤ preferred ∧ preferred + count ≤ candidate.stop then some (upper - 1)
      else none

/-- The run to take one contiguous range from, and where in it the range begins. -/
def selectRun (runs : List Span) (preferred : Option Nat) (count : Nat) : Option (Nat × Nat) :=
  match preferred.bind fun p => (preferredRun runs p count).map fun i => (i, p) with
  | some selected => some selected
  | none => (runs.findIdx? (count ≤ ·.size)).bind fun i => runs[i]?.map fun run => (i, run.start)

/-- Pages from the front of the list, run after run, and the runs that are left; none when the
    loop runs past the end of the list. -/
def gather : List Span → Nat → Option (List Nat × List Span)
  | [], remaining => if remaining = 0 then some ([], []) else none
  | run :: rest, remaining =>
    if remaining = 0 then some ([], run :: rest)
    else if run.size ≤ remaining then
      (gather rest (remaining - run.size)).map fun p => (List.range' run.start run.size ++ p.1, p.2)
    else some (List.range' run.start remaining,
      ⟨run.start + remaining, run.size - remaining⟩ :: rest)

/-- One call of the lambda `append_page`. -/
def appendPage (page : Nat) : Eff DeviceKVPagePool DeviceKVPageLease := do
  let s ← Eff.get
  Eff.modify fun s => { s with pageAllocated := update s.pageAllocated page true }
  return ⟨some s.id, page, s.pageGenerations page⟩

/-- The pages appended to the destination: one contiguous range if there is one, else gathered
    from the first runs. -/
def takePages (preferred : Option Nat) (count : Nat) :
    Eff DeviceKVPagePool (List DeviceKVPageLease) := do
  let s ← Eff.get
  match selectRun s.freePageRuns preferred count with
  | some (selected, start) =>
    let leases ← Eff.collect (List.range' start count) appendPage
    consumeFreeRun selected start count
    return leases
  | none =>
    match gather s.freePageRuns count with
    | none => Eff.die
    | some (pages, runs) =>
      let leases ← Eff.collect pages appendPage
      Eff.modify fun s => { s with freePageRuns := runs }
      return leases

def materialize (targetPageCount : Nat)
    (destination : LeaseVector) (preferredPredecessor : Option DeviceKVPageHandle) :
    Eff DeviceKVPagePool (DeviceKVPageReservation × LeaseVector) := do
  let s ← Eff.get
  if reservation.owner ≠ some s.id ∨ targetPageCount < destination.leases.length then
    Eff.raise (.invalidArgument "Paged KV materialization has an invalid owner or extent")
  else
    let count := targetPageCount - destination.leases.length
    if count > reservation.pages ∨ targetPageCount > destination.capacity then
      Eff.raise (.invalidArgument "Paged KV materialization exceeds reserved capacity")
    else if ¬ ∀ page ∈ destination.leases, s.validHandle page then
      Eff.raise (.invalidArgument "Paged KV materialization destination is stale")
    else if count = 0 then return (reservation, destination)
    else if count > s.capacityPages - s.allocatedPages then
      Eff.raise (.logicError "Paged KV reservation invariant was violated")
    else if ∃ h ∈ preferredPredecessor, ¬ s.validHandle h then
      Eff.raise (.invalidArgument "Paged KV page handle is stale")
    else
      let preferred := (preferredPredecessor.or destination.leases.getLast?).map (·.index + 1)
      let leases ← takePages preferred count
      Eff.modify fun s => { s with
        allocatedPages := s.allocatedPages + count
        reservedPages := s.reservedPages - count }
      return ({ reservation with pages := reservation.pages - count },
        { destination with leases := destination.leases ++ leases })

def materializeOne :
    Eff DeviceKVPagePool (DeviceKVPageReservation × DeviceKVPageLease) := do
  let s ← Eff.get
  if reservation.owner ≠ some s.id ∨ reservation.pages = 0 then
    Eff.raise (.invalidArgument "Paged KV single-page materialization exceeds reservation")
  else
    match s.freePageRuns with
    | [] => Eff.raise (.logicError "Paged KV reservation invariant was violated")
    | run :: rest =>
      Eff.modify fun s => { s with
        freePageRuns := if run.size - 1 = 0 then rest else ⟨run.start + 1, run.size - 1⟩ :: rest
        pageAllocated := update s.pageAllocated run.start true
        allocatedPages := s.allocatedPages + 1
        reservedPages := s.reservedPages - 1 }
      return ({ reservation with pages := reservation.pages - 1 },
        ⟨some s.id, run.start, s.pageGenerations run.start⟩)

def dematerialize (targetPageCount : Nat)
    (source : LeaseVector) : Eff DeviceKVPagePool (DeviceKVPageReservation × LeaseVector) := do
  let s ← Eff.get
  if reservation.owner ≠ some s.id ∨ source.leases.length < targetPageCount then
    Eff.raise (.invalidArgument "Paged KV dematerialization has an invalid owner or extent")
  else if ¬ ∀ page ∈ source.leases, s.validHandle page then
    Eff.raise (.invalidArgument "Paged KV dematerialization source is stale")
  else
    let released := source.leases.length - targetPageCount
    if released = 0 then return (reservation, source)
    else if released > maxU32 - reservation.pages then
      Eff.raise (.overflowError "Paged KV reservation size overflow")
    else
      Eff.forEach (source.leases.drop targetPageCount) fun page => do let _ ← releaseLease page
      Eff.modify fun s => { s with reservedPages := s.reservedPages + released }
      return ({ reservation with pages := reservation.pages + released },
        { source with leases := source.leases.take targetPageCount })

def dematerializeOne (page : DeviceKVPageLease) :
    Eff DeviceKVPagePool DeviceKVPageReservation := do
  let s ← Eff.get
  if reservation.owner ≠ some s.id ∨ ¬ s.validHandle page ∨ reservation.pages = maxU32 then
    Eff.raise (.invalidArgument "Paged KV single-page dematerialization is invalid")
  else if (← releaseLease page) = false then
    Eff.raise (.logicError "Paged KV single-page dematerialization lost its lease")
  else
    Eff.modify fun s => { s with reservedPages := s.reservedPages + 1 }
    return { reservation with pages := reservation.pages + 1 }

end DeviceKVPagePool

end Ninfer
