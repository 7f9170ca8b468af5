/-
  The demand window of the manager, and how long an explicit credit lasts.

  A plan reads the window as it will be once its own demand is committed. `Demanded keep s ds t`
  says that `t` comes from `s` by the commits `ds`, with any changes that `keep` allows in
  between. A commit is listed with the manager it found.
-/
import Ninfer.Resources.ActiveCapture

namespace Ninfer.Resources

/-- The loop over the window: one bit for each demand that matches the key. -/
def demandMask (demands : List PrefixDemandRecord) (key : PrefixShortlistKey) : UInt32 :=
  demands.zipIdx.foldl
    (fun mask d => if demandMatches d.1 key then mask ||| (1 : UInt32) <<< d.2.toUInt32
      else mask) 0

namespace ResourceManager

def demandMaskFor (s : ResourceManager) (key : PrefixShortlistKey)
    (provisional : PrefixDemandRecord) : UInt32 :=
  let window := if s.demandWindow.length = demandWindowCapacity then s.demandWindow.tail
    else s.demandWindow
  let mask := demandMask window key
  if window.length < demandWindowCapacity ∧ demandMatches provisional key then
    mask ||| (1 : UInt32) <<< window.length.toUInt32
  else mask

def committedDemandMaskFor (s : ResourceManager) (key : PrefixShortlistKey) : UInt32 :=
  demandMask s.demandWindow key

end ResourceManager

open ResourceManager

inductive Demanded (keep : ResourceManager → ResourceManager → Prop) (s : ResourceManager) :
    List (ResourceManager × PrefixDemandRecord) → ResourceManager → Prop where
  | start : Demanded keep s [] s
  | other {ds t u} (h : Demanded keep s ds t) (hkeep : keep t u) : Demanded keep s ds u
  | commit {ds t} (h : Demanded keep s ds t) (d) :
    Demanded keep s (ds ++ [(t, d)]) (t.commitDemand d)

def SameDemand (s t : ResourceManager) : Prop :=
  t.demandWindow = s.demandWindow ∧ t.demandEpoch = s.demandEpoch

/-- The owner of the slot is catalogued and holds the credit it had. -/
structure SameCredit (j : Nat) (s t : ResourceManager) : Prop where
  epoch : t.demandEpoch = s.demandEpoch
  inside : j < t.sharedCatalogCount
  live : (t.sharedCatalog j).state = .catalogued ∧ (t.sharedCatalog j).handle.isSome
  credit : (t.sharedCatalog j).explicitCredit = (s.sharedCatalog j).explicitCredit
  expiry : (t.sharedCatalog j).creditExpiryEpoch = (s.sharedCatalog j).creditExpiryEpoch

/-- The commit names the owner of the slot among its exact residents. -/
def namesOwner (j : Nat) (c : ResourceManager × PrefixDemandRecord) : Bool :=
  c.2.exactResidentKeys.contains (c.1.sharedCatalog j).summary.checkpoint.shortlistKey

variable {s t : ResourceManager} {ds : List (ResourceManager × PrefixDemandRecord)}
  {keep : ResourceManager → ResourceManager → Prop} {j : Nat}

/-! ## The window -/

theorem demandMask_concat (demands : List PrefixDemandRecord) (d : PrefixDemandRecord)
    (key : PrefixShortlistKey) :
    demandMask (demands ++ [d]) key = if demandMatches d key then
      demandMask demands key ||| (1 : UInt32) <<< demands.length.toUInt32
      else demandMask demands key := by
  unfold demandMask
  rw [List.zipIdx_append, List.foldl_append]
  simp

theorem committedDemandMaskFor_commitDemand (r : PrefixDemandRecord) (key : PrefixShortlistKey)
    (hlen : t.demandWindow.length ≤ demandWindowCapacity) :
    (t.commitDemand r).committedDemandMaskFor key = t.demandMaskFor key r := by
  have hroom : (if t.demandWindow.length = demandWindowCapacity then t.demandWindow.tail
      else t.demandWindow).length < demandWindowCapacity := by
    split
    · rw [List.length_tail]
      unfold demandWindowCapacity at *
      omega
    · omega
  show demandMask (_ ++ [r]) key = _
  rw [demandMask_concat, demandMaskFor]
  simp [hroom]

theorem Demanded.window (h : Demanded SameDemand s ds t) (hs : s.demandWindow = []) :
    t.demandWindow = (ds.map (·.2)).drop (ds.length - demandWindowCapacity) := by
  induction h with
  | start => exact hs
  | other h hkeep ih => exact hkeep.1.trans ih
  | @commit ds t h d ih =>
    show (if t.demandWindow.length = demandWindowCapacity then t.demandWindow.tail
      else t.demandWindow) ++ [d] = _
    rw [ih, List.length_drop, List.tail_drop, List.map_append, List.length_append, List.length_map]
    unfold demandWindowCapacity
    -- a full window gives up its oldest row, so both cases are a later start of the same list
    split <;>
    · rw [List.drop_append_of_le_length (by simp)]
      congr 2
      simp
      omega

theorem Demanded.epoch (h : Demanded keep s ds t)
    (hkeep : ∀ t u, keep t u → u.demandEpoch = t.demandEpoch)
    (hs : s.demandEpoch ≤ 2 ^ 64 - 1) :
    t.demandEpoch = min (s.demandEpoch + ds.length) (2 ^ 64 - 1) := by
  induction h with
  | start => simpa using hs
  | other h hk ih => exact (hkeep _ _ hk).trans ih
  | commit h d ih =>
    show saturatingIncrement _ = _
    rw [ih, saturatingIncrement, List.length_append, List.length_singleton]
    split <;> omega

/-! ## Credits -/

/-- One commit: the credit goes when the owner is named or its epoch is reached. -/
theorem explicitCredit_commitDemand {d : PrefixDemandRecord} (hj : j < t.sharedCatalogCount)
    (hlive : (t.sharedCatalog j).state = .catalogued ∧ (t.sharedCatalog j).handle.isSome) :
    (((t.commitDemand d).sharedCatalog j).explicitCredit = true ↔
      (t.sharedCatalog j).explicitCredit = true ∧ namesOwner j (t, d) = false ∧
        (t.commitDemand d).demandEpoch < (t.sharedCatalog j).creditExpiryEpoch) ∧
    (((t.commitDemand d).sharedCatalog j).explicitCredit = true →
      (t.commitDemand d).sharedCatalog j = t.sharedCatalog j) ∧
    ((t.commitDemand d).sharedCatalog j).state = .catalogued ∧
      ((t.commitDemand d).sharedCatalog j).handle.isSome := by
  simp only [commitDemand, hj, if_true, creditAfter, namesOwner, hlive, true_and]
  split_ifs with h
  · simp_all [imp_iff_not_or, or_comm]
  · simp_all

/-- A credit given at epoch `e` is held, or has been taken by a commit. -/
structure Credited (e j : Nat) (ds : List (ResourceManager × PrefixDemandRecord))
    (t : ResourceManager) : Prop where
  inside : j < t.sharedCatalogCount
  live : (t.sharedCatalog j).state = .catalogued ∧ (t.sharedCatalog j).handle.isSome
  credit : (t.sharedCatalog j).explicitCredit = true ↔
    ds.length < demandWindowCapacity ∧ ∀ c ∈ ds, namesOwner j c = false
  expiry : (t.sharedCatalog j).explicitCredit = true →
    (t.sharedCatalog j).creditExpiryEpoch = e + demandWindowCapacity

theorem Credited.carry {e : Nat} {u : ResourceManager} (h : Credited e j ds t)
    (hkeep : SameCredit j t u) : Credited e j ds u where
  inside := hkeep.inside
  live := hkeep.live
  credit := by rw [hkeep.credit, h.credit]
  expiry := by rw [hkeep.credit, hkeep.expiry]; exact h.expiry

theorem Credited.commit {e : Nat} (h : Credited e j ds t) (d : PrefixDemandRecord)
    (he : e + demandWindowCapacity ≤ 2 ^ 64 - 1)
    (hepoch : (t.commitDemand d).demandEpoch = min (e + (ds.length + 1)) (2 ^ 64 - 1)) :
    Credited e j (ds ++ [(t, d)]) (t.commitDemand d) := by
  obtain ⟨hcredit, hsame, hlive⟩ := explicitCredit_commitDemand h.inside h.live (d := d)
  refine ⟨h.inside, hlive, ?_, fun hc => ?_⟩
  · rw [hcredit, List.length_append, List.length_singleton]
    constructor
    · rintro ⟨hc, hname, hlt⟩
      obtain ⟨hlen, hnone⟩ := h.credit.1 hc
      rw [h.expiry hc, hepoch] at hlt
      refine ⟨by omega, fun c hmem => ?_⟩
      rcases List.mem_append.1 hmem with hmem | hmem
      · exact hnone c hmem
      · rwa [List.mem_singleton.1 hmem]
    · rintro ⟨hlen, hnone⟩
      have hc := h.credit.2 ⟨by omega, fun c hmem => hnone c (List.mem_append_left _ hmem)⟩
      refine ⟨hc, hnone _ (by simp), ?_⟩
      rw [h.expiry hc, hepoch]
      omega
  · rw [hsame hc]
    exact h.expiry (hcredit.1 hc).1

theorem Demanded.credited {e : Nat} (h : Demanded (SameCredit j) s ds t) (hs : Credited e j [] s)
    (he : s.demandEpoch = e) (hroom : e + demandWindowCapacity ≤ 2 ^ 64 - 1) :
    Credited e j ds t := by
  induction h with
  | start => exact hs
  | other h hkeep ih => exact ih.carry hkeep
  | commit h d ih =>
    refine ih.commit d hroom ?_
    rw [(h.commit d).epoch (fun _ _ hk => hk.epoch) (by omega), he]
    simp

theorem credited_publishShared {record : ActiveCaptureRecord} {shared : SharedPrefixPublication}
    (hj : j < s.sharedCatalogCount) (hcredit : sharedCredit record.sharedEvidence)
    (hroom : s.demandEpoch + demandWindowCapacity ≤ 2 ^ 64 - 1) :
    Credited s.demandEpoch j [] (s.publishShared record j shared) := by
  constructor
  · exact hj
  · simp [publishShared, setSharedEntry]
  · simp [publishShared, setSharedEntry, hcredit, demandWindowCapacity]
  · intro _
    simp [publishShared, setSharedEntry, hcredit, creditExpiry]
    omega

/-- What a plan reads is what its commit leaves, the window holds the last demands, and an explicit
    credit lasts until the owner is named or the window has passed. -/
theorem demand_planned_as_committed (s : ResourceManager) :
    (∀ ds t r key, s.demandWindow = [] → Demanded SameDemand s ds t →
      (t.commitDemand r).committedDemandMaskFor key = t.demandMaskFor key r ∧
      (t.commitDemand r).committedReuseDomains key = t.matchingReuseDomains key r ∧
      t.demandWindow = (ds.map (·.2)).drop (ds.length - demandWindowCapacity)) ∧
    ∀ record slot shared ds t, slot < s.sharedCatalogCount → sharedCredit record.sharedEvidence →
      s.demandEpoch + demandWindowCapacity ≤ 2 ^ 64 - 1 →
      Demanded (SameCredit slot) (s.publishShared record slot shared) ds t →
      ((t.sharedCatalog slot).explicitCredit = true ↔
        ds.length < demandWindowCapacity ∧ ∀ c ∈ ds, namesOwner slot c = false) := by
  constructor
  · intro ds t r key hs h
    have hwindow := h.window hs
    refine ⟨committedDemandMaskFor_commitDemand r key ?_, rfl, hwindow⟩
    rw [hwindow, List.length_drop, List.length_map]
    omega
  · intro record slot shared ds t hslot hcredit hroom h
    exact (h.credited (credited_publishShared hslot hcredit hroom) rfl hroom).credit

/-- A manager with one slot of each kind, and a capture and a demand for it. -/
def oneSlotManager : ResourceManager where
  laneCount := 1
  catalogCount := 1
  sharedCatalogCount := 1
  cacheEnabled := true
  maxLongAnchors := 0

def explicitCapture : ActiveCaptureRecord where
  lane := 0
  sharedEvidence := { explicitBoundary := true }

def emptyDemand : PrefixDemandRecord := { domain := ⟨0, 0⟩ }

/-- Two demands for the prefix at token 64, and one that names the owner with the key `{}`. -/
def unnamedDemands : PrefixDemandRecord × PrefixDemandRecord :=
  ({ domain := ⟨1, 1⟩, candidateKeys := [{ frontier := 64 }] },
    { domain := ⟨2, 2⟩, exactResidentKeys := [{ frontier := 64 }] })

def namingDemand : PrefixDemandRecord :=
  { domain := ⟨3, 3⟩, exactResidentKeys := [{}] }

/-- The credit of the capture outlives two demands and goes with the one that names it. -/
theorem demand_planned_as_committed_named :
    ((oneSlotManager.commitDemand unnamedDemands.1).commitDemand unnamedDemands.2).demandWindow =
      [unnamedDemands.1, unnamedDemands.2] ∧
    (((oneSlotManager.commitDemand unnamedDemands.1).commitDemand unnamedDemands.2).commitDemand
      namingDemand).committedReuseDomains { frontier := 64 } = 2 ∧
    (((oneSlotManager.publishShared explicitCapture 0 ⟨0, {}⟩).commitDemand
      unnamedDemands.1).commitDemand unnamedDemands.2 |>.sharedCatalog 0).explicitCredit = true ∧
    ((((oneSlotManager.publishShared explicitCapture 0 ⟨0, {}⟩).commitDemand
      unnamedDemands.1).commitDemand unnamedDemands.2).commitDemand namingDemand
        |>.sharedCatalog 0).explicitCredit = false := by
  have h := demand_planned_as_committed oneSlotManager
  obtain ⟨-, hdomains, hwindow⟩ := h.1 _ _ namingDemand { frontier := 64 } rfl
    (.commit (.commit .start unnamedDemands.1) unnamedDemands.2)
  have hcredit ds t := h.2 explicitCapture 0 ⟨0, {}⟩ ds t (by decide) rfl (by decide)
  refine ⟨hwindow, hdomains.trans (by decide), ?_, ?_⟩
  · refine (hcredit _ _ (.commit (.commit .start unnamedDemands.1) unnamedDemands.2)).2 ?_
    decide
  · rw [← Bool.not_eq_true, hcredit _ _
      (.commit (.commit (.commit .start unnamedDemands.1) unnamedDemands.2) namingDemand)]
    decide

theorem Demanded.exists_length (s : ResourceManager) (n : Nat) :
    ∃ ds t, Demanded SameDemand s ds t ∧ ds.length = n ∧
      t.sharedCatalogCount = s.sharedCatalogCount := by
  induction n with
  | zero => exact ⟨[], s, .start, rfl, rfl⟩
  | succ n ih =>
    obtain ⟨ds, t, h, hlen, hcount⟩ := ih
    exact ⟨_, _, h.commit emptyDemand, by simp [hlen], hcount⟩

/-- Once the demand epoch is saturated, a credit goes with the next commit. -/
theorem explicitCredit_lost_saturated : ∃ ds t, Demanded SameDemand oneSlotManager ds t ∧
      ∀ shared, ((t.publishShared explicitCapture 0 shared).sharedCatalog 0).explicitCredit = true ∧
        (((t.publishShared explicitCapture 0 shared).commitDemand
          emptyDemand).sharedCatalog 0).explicitCredit = false := by
  obtain ⟨ds, t, h, hlen, hcount⟩ := Demanded.exists_length oneSlotManager (2 ^ 64 - 1)
  have hepoch := h.epoch (fun _ _ hk => hk.2) (by decide)
  rw [hlen] at hepoch
  refine ⟨ds, t, h, fun shared => ⟨rfl, ?_⟩⟩
  simp [commitDemand, publishShared, setSharedEntry, hcount, oneSlotManager, creditAfter,
    creditExpiry, saturatingIncrement, hepoch, explicitCapture, sharedCredit, demandWindowCapacity]

end Ninfer.Resources
