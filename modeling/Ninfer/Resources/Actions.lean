/-
  What a transaction does to the owners it claimed.

  A record lists the private and shared owners a plan takes as pressure victims. The Program
  reports one row for each; `validate_*_action` checks the row against the claim and the entry,
  `apply_*_action` moves the entry to what the row reports. Both kinds of transaction use them.
-/
import Ninfer.Resources.Catalog

namespace Ninfer.Resources

open Lib Function

namespace ResourceManager

/-! ## Owners a plan may name -/

variable (s : ResourceManager)

/-- The entry is the catalogued owner the capability was taken from. -/
abbrev PrivateUnchanged (c : CatalogCapability) : Prop :=
  (s.catalog c.slot).state = .catalogued ∧ (s.catalog c.slot).handle.isSome ∧
    (s.catalog c.slot).id = c.owner.id ∧ (s.catalog c.slot).revision = c.generation

abbrev SharedUnchanged (c : CatalogCapability) : Prop :=
  (s.sharedCatalog c.slot).state = .catalogued ∧ (s.sharedCatalog c.slot).handle.isSome ∧
    (s.sharedCatalog c.slot).id = c.owner.id ∧ (s.sharedCatalog c.slot).revision = c.generation

/-- No transaction and no lane uses the shared slot. -/
abbrev SharedIdle (slot : Nat) : Prop :=
  (s.sharedCatalog slot).transactionPins = 0 ∧ s.sharedActiveEdgeCount slot = 0

/-! ## Claims -/

def setCatalogState (slot : Nat) (state : CatalogState) : ResourceManager :=
  s.setEntry slot { s.catalog slot with state }

def setSharedState (slot : Nat) (state : SharedCatalogState) :
    ResourceManager :=
  s.setSharedEntry slot { s.sharedCatalog slot with state }

/-- The loop that moves every private owner of the claims to one state. -/
def setPrivateClaims (claims : List OwnerClaim) (state : CatalogState) :
    ResourceManager :=
  claims.foldl (fun s c => s.setCatalogState c.capability.slot state) s

def setSharedClaims (claims : List OwnerClaim) (state : SharedCatalogState) :
    ResourceManager :=
  claims.foldl (fun s c => s.setSharedState c.capability.slot state) s

end ResourceManager

/-! ## Rows of a result -/

/-- The one row of the owner; it throws when there is none or a second. -/
def resultFor {σ Summary : Type} (what : String) (victims : List (VictimResult Summary))
    (claim : OwnerClaim) : Eff σ (VictimResult Summary) :=
  match victims.filter (·.owner = claim.planningId) with
  | [row] => pure row
  | _ => Eff.raise (.logicError what)

abbrev privateResultFor {σ : Type} := @resultFor σ ContinuationSummary

abbrev sharedResultFor {σ : Type} := @resultFor σ SharedPrefixSummary

/-- No earlier claim has the planning id or the capability of this one. -/
abbrev FirstOfManifest (claims : List OwnerClaim) (row : Nat) (claim : OwnerClaim) : Prop :=
  ∀ prior ∈ claims.take row,
    ¬ (prior.planningId = claim.planningId ∨ prior.capability = claim.capability)

/-! ## Checks -/

variable (claim : OwnerClaim)

def validatePrivateAction (targetCommitted : Bool)
    (result : MaterializationVictimResult) : Eff ResourceManager Unit := do
  let s ← Eff.get
  let slot := claim.capability.slot
  Eff.require (slot < s.catalogCount) (.logicError "private action result has an invalid slot")
  let entry := s.catalog slot
  Eff.require (claim.capability.owner.kind = .privateContinuation ∧ entry.state = .claimed ∧
      entry.id = claim.capability.owner.id ∧ entry.revision = claim.capability.generation ∧
      entry.handle.isSome)
    (.logicError "private action owner changed before adoption")
  Eff.require (result.finalSummary.all (validContinuationSummary s.maxLongAnchors))
    (.logicError "private action returned an invalid final summary")
  let dropped := droppedCheckpointCount entry.summary result.finalSummary result.disposition
  Eff.require (targetCommitted → result.pressureCommitted)
    (.logicError "selected private pressure action was not committed")
  Eff.require (result.pressureCommitted → result.disposition = claim.disposition ∧
      continuationMatchesClaim entry.summary result.finalSummary result.disposition
        claim.droppedCheckpoints)
    (.logicError "private owner outcome differs from the selected target")
  if result.disposition = .evicted then
    Eff.require (result.pressureCommitted ∧ result.finalSummary = none)
      (.logicError "private eviction result is malformed")
  else do
    Eff.require (¬ result.pressureCommitted → dropped = 0 ∧ ∀ final ∈ result.finalSummary,
          continuationMatchesClaim entry.summary (some final) .retained [])
      (.logicError "uncommitted private pressure action changed checkpoints")
    Eff.require (result.pressureCommitted → result.finalSummary.isSome)
      (.logicError "committed private pressure action has no final summary")

/-- The outcome of a shared row that its claim selected. -/
abbrev ExactCommittedOutcome (entry : SharedCatalogEntry)
    (result : MaterializationSharedVictimResult) : Prop :=
  if result.disposition = .evicted then
    claim.droppedCheckpoints = [entry.summary.checkpoint.ref] ∧ result.finalSummary = none
  else claim.droppedCheckpoints = [] ∧
    result.finalSummary.any (·.checkpoint.ref = entry.summary.checkpoint.ref)

def validateSharedAction (targetCommitted : Bool)
    (result : MaterializationSharedVictimResult) : Eff ResourceManager Unit := do
  let s ← Eff.get
  let slot := claim.capability.slot
  Eff.require (slot < s.sharedCatalogCount) (.logicError "shared action result has an invalid slot")
  let entry := s.sharedCatalog slot
  Eff.require (claim.capability.owner.kind = .sharedPrefix ∧ entry.state = .claimed ∧
      entry.id = claim.capability.owner.id ∧ entry.revision = claim.capability.generation ∧
      entry.handle.isSome)
    (.logicError "shared action owner changed before adoption")
  Eff.require (result.finalSummary.all validSharedPrefixSummary)
    (.logicError "shared action returned an invalid final summary")
  Eff.require (targetCommitted → result.pressureCommitted)
    (.logicError "selected shared pressure action was not committed")
  Eff.require (result.pressureCommitted → result.disposition = claim.disposition ∧
      ExactCommittedOutcome claim entry result)
    (.logicError "shared owner outcome differs from the selected target")
  if result.disposition = .evicted then
    Eff.require (result.pressureCommitted ∧ result.finalSummary = none)
      (.logicError "shared eviction result is malformed")
  else do
    Eff.require (¬ result.pressureCommitted →
        result.finalSummary.all (·.checkpoint.ref = entry.summary.checkpoint.ref))
      (.logicError "uncommitted shared pressure action changed checkpoint identity")
    Eff.require (result.pressureCommitted → result.finalSummary.isSome)
      (.logicError "committed shared pressure action has no final summary")

/-! ## Application -/

/-- `assign_continuation_summary`, `migrate_observations` and `advance_revision`, as every
    republication of an owner runs them. -/
def renewEntry {σ : Type} (maxLongAnchors : Nat) (e : CatalogEntry) (summary : ContinuationSummary)
    (retention : RetentionClass) : Eff σ CatalogEntry := do
  let assigned ← assignContinuationSummary maxLongAnchors e summary
  let migrated ← migrateObservations maxLongAnchors assigned summary retention
  pure { migrated with revision := advanceRevision migrated.revision }

namespace ResourceManager

def eraseSessions (s : ResourceManager) (ownerId : UInt64) : ResourceManager :=
  { s with sessionIndex := eraseSessionIfOwner ownerId s.sessionIndex }

def refreshSession (s : ResourceManager) (ownerId : UInt64) (slot : Nat) (revision : UInt64) :
    ResourceManager :=
  { s with
    sessionIndex := refreshSessionOwnerRevision s.catalogCount s.catalogCount ownerId slot revision
      s.sessionIndex }

end ResourceManager

def applyPrivateAction (result : MaterializationVictimResult) :
    Eff ResourceManager Unit := do
  let s ← Eff.get
  let slot := claim.capability.slot
  if result.disposition = .evicted then do
    Eff.modify (·.eraseSessions claim.capability.owner.id)
    Eff.modify fun s => s.setEntry slot (clearCatalogEntry (s.catalog slot))
  else if ¬ result.pressureCommitted then
    Eff.modify (·.setCatalogState slot .catalogued)
  else do
    let summary ← Eff.deref result.finalSummary
    let entry ← renewEntry s.maxLongAnchors (s.catalog slot) summary (s.catalog slot).retention
    Eff.modify (·.setEntry slot entry)
    Eff.modify (·.refreshSession claim.capability.owner.id slot entry.revision)
    Eff.modify (·.setCatalogState slot .catalogued)

def applySharedAction (result : MaterializationSharedVictimResult) :
    Eff ResourceManager Unit := do
  let s ← Eff.get
  let slot := claim.capability.slot
  let entry := s.sharedCatalog slot
  if result.disposition = .evicted then
    Eff.modify (·.setSharedEntry slot (clearSharedEntry entry))
  else if ¬ result.pressureCommitted then
    Eff.modify (·.setSharedState slot .catalogued)
  else do
    let summary ← Eff.deref result.finalSummary
    Eff.modify (·.setSharedEntry slot { entry with
      summary
      revision := advanceRevision entry.revision
      state := .catalogued })

end Ninfer.Resources
