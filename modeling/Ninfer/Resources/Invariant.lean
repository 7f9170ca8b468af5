/-
  The invariant of the manager between two calls.

  What the open record holds is read off the transaction (`ResourceManager.holding`): a
  materialization holds the slots it names until its result is adopted, which is when its lane
  becomes occupied; the record stays open a little longer, until `adopt`. `Invariant` adds to the
  soundness of the tables what an open record may rely on, how the states of the lanes go with
  their entries, and that publication orders are distinct: `published` lists the orders of the
  activations published so far, which the code does not keep.
-/
import Ninfer.Resources.MaterializationRules

namespace Ninfer.Resources

open Lib Function

/-! ## Holdings -/

/-- The private slots a materialization names. -/
def MaterializationRecord.NamesPrivate (r : MaterializationRecord) (j : Nat) : Prop :=
  sourceSlot r.privateSource j ∨ slotsOf r.privateClaims j ∨ j = r.publicationSlot

def MaterializationRecord.holding (r : MaterializationRecord) : Holding :=
  { priv := r.NamesPrivate
    shared := slotsOf r.sharedClaims
    pinned := sourceSlot r.sharedSource }

def ActiveCaptureRecord.holding (r : ActiveCaptureRecord) : Holding :=
  { priv := slotsOf r.privateClaims
    shared := slotsOf r.sharedClaims
    captured := fun j => r.publicationSlot = some j }

/-- What the open transaction holds. -/
def ResourceManager.holding (s : ResourceManager) : Holding :=
  match s.transaction with
  | .none => {}
  | .materialization r => if (s.active r.destination).occupied then {} else r.holding
  | .activeCapture r => r.holding

/-! ## Records -/

/-- A consumed source is republished in its own slot, a retained one is not. -/
structure MaterializationRecord.Fits (r : MaterializationRecord) : Prop where
  consumed : r.sourceMode = .consumeToActive → ∀ c ∈ r.privateSource, c.slot = r.publicationSlot
  retained : r.sourceMode = .retain → ∀ c ∈ r.privateSource, c.slot ≠ r.publicationSlot

/-- What a materialization that is not adopted yet relies on. -/
structure PendingOk (s : ResourceManager) (r : MaterializationRecord) : Prop where
  publication : r.publicationSlot < s.catalogCount
  source : ∀ c ∈ r.privateSource, c.slot < s.catalogCount ∧ (s.catalog c.slot).Live
  claims : ∀ c ∈ r.privateClaims, c.capability.slot < s.catalogCount ∧
    (s.catalog c.capability.slot).Live
  spare : ¬ sourceSlot r.privateSource r.publicationSlot →
    ¬ slotsOf r.privateClaims r.publicationSlot → (s.catalog r.publicationSlot).Blank
  fits : r.Fits
  sharedSource : ∀ c ∈ r.sharedSource, c.slot < s.sharedCatalogCount ∧
    (s.sharedCatalog c.slot).state = .catalogued
  sharedClaims : ∀ c ∈ r.sharedClaims, c.capability.slot < s.sharedCatalogCount ∧
    (s.sharedCatalog c.capability.slot).Live

structure CaptureOk (s : ResourceManager) (r : ActiveCaptureRecord) : Prop where
  claims : ∀ c ∈ r.privateClaims, c.capability.slot < s.catalogCount ∧
    (s.catalog c.capability.slot).Live
  sharedClaims : ∀ c ∈ r.sharedClaims, c.capability.slot < s.sharedCatalogCount ∧
    (s.sharedCatalog c.capability.slot).Live
  publication : ∀ j ∈ r.publicationSlot, j < s.sharedCatalogCount ∧
    (r.replacementId = 0 → (s.sharedCatalog j).Blank) ∧
    (r.replacementId ≠ 0 → (s.sharedCatalog j).Live)
  privateOnly : r.publishesShared = false → r.publicationSlot = none

def RecordOk (s : ResourceManager) : Prop :=
  match s.transaction with
  | .none => True
  | .materialization r => (s.active r.destination).occupied = false → PendingOk s r
  | .activeCapture r => CaptureOk s r

/-! ## Lanes and orders -/

structure LaneStates (s : ResourceManager) : Prop where
  running : ∀ l < s.laneCount, s.lanes l = .active ∨ s.lanes l = .terminalPending →
    (s.active l).occupied
  free : ∀ l < s.laneCount, s.lanes l = .free → (s.active l).occupied = false
  materializing : ∀ l < s.laneCount, s.lanes l = .materializing →
    ∃ r, s.transaction = .materialization r ∧ r.destination = l
  record : ∀ r, s.transaction = .materialization r →
    r.destination < s.laneCount ∧ s.lanes r.destination = .materializing

/-- The publication orders of cells and lanes come from published activations, and no two of
    them are equal unless they are one binding's. -/
structure Orders (s : ResourceManager) (published : List Nat) : Prop where
  cell : ∀ c < s.catalogCount, (s.sessionIndex c).state = .occupied →
    (s.sessionIndex c).publicationOrder ∈ published
  lane : ∀ l < s.laneCount, (s.active l).occupied → (s.active l).publicationOrder ∈ published
  laneCell : ∀ l < s.laneCount, (s.active l).occupied → ∀ c < s.catalogCount,
    (s.sessionIndex c).state = .occupied →
    (s.active l).publicationOrder ≠ (s.sessionIndex c).publicationOrder
  laneLane : ∀ l < s.laneCount, ∀ k < s.laneCount, (s.active l).occupied → (s.active k).occupied →
    (s.active l).publicationOrder = (s.active k).publicationOrder → l = k
  record : ∀ r, s.transaction = .materialization r → (s.active r.destination).occupied = false →
    r.publicationOrder ∉ published

structure Invariant (s : ResourceManager) (published : List Nat) : Prop where
  size : 0 < s.catalogCount
  sound : Sound s s.holding
  record : RecordOk s
  lanes : LaneStates s
  orders : Orders s published

end Ninfer.Resources
