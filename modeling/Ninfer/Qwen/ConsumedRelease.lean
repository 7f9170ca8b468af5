/-
  What consuming a source frees, against what its plan allows for.

  `prepare_consumed_source` takes the source's exclusive resources before and after, and throws
  when the difference is more than `demand.final_removed`. The plan sets that to the source's
  exclusive resources at planning time; `compose_pressure_candidate` adds what the victims free
  and what of the kept prefix they leave to the source alone. Nothing is added for pages past the
  reuse base, or for images the source gives up, that only a victim shared.

  So the check can throw. It passes when what the source gives up and holds alone only since the
  victims are gone fits into what it held alone before and keeps, with what the plan adds.
-/
import Ninfer.Qwen.PressureFrame
import Ninfer.Qwen.ConsumedSource

namespace Ninfer.Qwen

open Lib Function
open Resources (CheckpointRef)

namespace PhysicalResources

theorem add_assoc (a b d : PhysicalResources) : a + b + d = a + (b + d) := by
  ext <;> exact Nat.add_assoc ..

theorem add_sub_cancel_right (a b : PhysicalResources) : a + b - b = a := by
  ext <;> exact Nat.add_sub_cancel ..

theorem add_le_add_iff_left {a b d : PhysicalResources} : a + b ≤ a + d ↔ b ≤ d :=
  and_congr Nat.add_le_add_iff_left <| and_congr Nat.add_le_add_iff_left <|
    and_congr Nat.add_le_add_iff_left <| and_congr Nat.add_le_add_iff_left <|
    and_congr Nat.add_le_add_iff_left Nat.add_le_add_iff_left

end PhysicalResources

/-! ## Parts of what a sequence holds -/

inductive Replica where
  | device
  | host
  deriving DecidableEq

def Residency.has (r : Residency) : Replica → Bool
  | .device => r.device
  | .host => r.host

/-- A choice among the replicas of the images and pages a sequence holds. -/
structure Portion where
  image : Replica → Nat → Bool
  page : KVClass → Replica → Nat → Bool

namespace Portion

variable (x y : Portion) (stride : KVClass → Nat) (q : SequenceState)

def inter : Portion where
  image r i := x.image r i && y.image r i
  page c r p := x.page c r p && y.page c r p

def diff : Portion where
  image r i := x.image r i && !y.image r i
  page c r p := x.page c r p && !y.page c r p

/-- The resources of the replicas chosen. -/
def size : PhysicalResources where
  device := {
    stateSlots := q.heldImages.dedup.countP (x.image .device)
    mainKvPages := (q.pages .main).countP (x.page .main .device)
    backendKvPages := (q.pages .backend).countP (x.page .backend .device) }
  host := {
    stateSlots := q.heldImages.dedup.countP (x.image .host)
    kvBytes := stride .main * (q.pages .main).countP (x.page .main .host) +
      stride .backend * (q.pages .backend).countP (x.page .backend .host) }

theorem size_split : x.size stride q = (x.inter y).size stride q + (x.diff y).size stride q := by
  have hbytes : ∀ c, stride c * (q.pages c).countP (x.page c .host) =
      stride c * (q.pages c).countP ((x.inter y).page c .host) +
        stride c * (q.pages c).countP ((x.diff y).page c .host) := by
    intro c
    rw [← Nat.mul_add]
    exact congrArg _ (countP_split _ _ _)
  ext
  · rfl
  · exact countP_split _ _ _
  · exact countP_split _ _ _
  · exact countP_split _ _ _
  · exact countP_split _ _ _
  · exact (congrArg₂ (· + ·) (hbytes .main) (hbytes .backend)).trans (Nat.add_add_add_comm ..)

theorem inter_comm : x.inter y = y.inter x := by
  simp [inter, Bool.and_comm]

variable {x y stride q} in
/-- What two portions have in common takes no part in comparing them. -/
theorem size_le_iff {d : PhysicalResources} : x.size stride q ≤ y.size stride q + d ↔
    (x.diff y).size stride q ≤ (y.diff x).size stride q + d := by
  rw [size_split x y, size_split y x, inter_comm y x, PhysicalResources.add_assoc,
    PhysicalResources.add_le_add_iff_left]

end Portion

namespace Residents

variable (s : Residents)

def imageHas : Replica → Nat → Bool
  | .device => s.imageOnDevice
  | .host => s.imageOnHost

/-- What a sequence holds alone. -/
def alone (q : SequenceState) : Portion where
  image r i := s.imageHas r i && decide (s.stateExclusiveToSequence q i)
  page c r p := (s.pages c p).residency.has r && decide (s.addressReferences c p ≤ 1)

/-! ## What the source gives up -/

/-- The source without an endpoint past the reuse base. -/
def withoutEndpoint (a : AdmissionCandidate) (q : SequenceState) : SequenceState :=
  if q.endpointValid = true ∧ q.executionFrontier > a.reuseBase then
    { q with endpointValid := false, state := {} }
  else q

def withoutAnchors (a : AdmissionCandidate) (q : SequenceState) : SequenceState :=
  { q with longAnchors := q.longAnchors.filter (·.frontier ≤ a.reuseBase) }

def withoutRewrite (a : AdmissionCandidate) (q : SequenceState) : SequenceState :=
  if (a.reuse = .privateEndpoint ∧ a.rewriteDisposition ≠ .retainExisting) ∧
      q.rewriteState ≠ none then
    { q with rewriteState := none, rewriteCheckpoint := none }
  else q

/-- The source with the checkpoints the plan keeps. -/
def keptSequence (a : AdmissionCandidate) (q : SequenceState) : SequenceState :=
  withoutRewrite a (withoutAnchors a (withoutEndpoint a q))

variable (a : AdmissionCandidate)

/-- The pages of a class that the active request keeps of the source. -/
def keptPages (c : KVClass) : Nat := kvPagesForFrontier (s.frontierOf a.reuseBase c)

/-- The page is a tail whose content a truncation in place changes. -/
def cutInPlace (c : KVClass) (pages : List Nat) (p : Nat) : Prop :=
  a.prefixForkRequired c = false ∧ s.changedTail c pages (s.frontierOf a.reuseBase c) = some p
  deriving Decidable

/-- What the release takes from the source: the images of checkpoints the plan does not keep, the
    pages past the reuse base, and the Host replica of a tail cut in place. -/
def givenUp (q : SequenceState) : Portion where
  image _ i := decide (i ∉ (keptSequence a q).heldImages)
  page c r p := decide (p ∈ (q.pages c).drop (s.keptPages a c) ∨
    (r = .host ∧ s.cutInPlace a c (q.pages c) p))

/-! ## The drops -/

/-- The state with another sequence in a slot, and other images. -/
def withSequence (k : Nat) (q : SequenceState) (images : Nat → Option StateImage) : Residents :=
  { s with
    continuations := update s.continuations k { s.continuations k with sequence := q }
    images }

/-- `t` is `s` with the sequence `q` in the slot, and perhaps without some images. -/
def Dropping (k : Nat) (s : Residents) (q : SequenceState) (t : Residents) : Prop :=
  ∃ images, t = s.withSequence k q images ∧ ∀ i, images i = s.images i ∨ images i = none

variable {s a} {k : Nat} {q : SequenceState} {images : Nat → Option StateImage} {t : Residents}

theorem sequence_withSequence (s : Residents) (k : Nat) (q : SequenceState)
    (images : Nat → Option StateImage) :
    ((s.withSequence k q images).continuations k).sequence = q := by
  simp [withSequence, update_self]

theorem setSequence_withSequence (s : Residents) (k : Nat) (q : SequenceState)
    (images : Nat → Option StateImage) (f : SequenceState → SequenceState) :
    (s.withSequence k q images).setSequence k f = s.withSequence k (f q) images := by
  simp [withSequence, setSequence, update_self, update_idem]

theorem Dropping.refl (k : Nat) (s : Residents) :
    Dropping k s (s.continuations k).sequence s :=
  ⟨s.images, by simp [withSequence, update_eq_self], fun _ => .inl rfl⟩

/-- The release that follows a drop only takes an image away. -/
theorem ensures_releaseDropped_of_gone (pinned : String) (i : Nat)
    (h : ∀ i, images i = s.images i ∨ images i = none) :
    Ensures (releaseDropped pinned k (s.withSequence k q images) i) (Dropping k s q) := by
  refine (ensures_releaseDropped pinned k _ i).mono ?_
  rintro t ⟨images', rfl, himages⟩
  refine ⟨images', rfl, fun j => ?_⟩
  exact (himages j).elim (fun hj => (h j).imp hj.trans hj.trans) .inr

theorem ensures_dropEndpoint (h : Dropping k s q t) :
    Ensures (dropEndpoint k a.reuseBase t) (Dropping k s (withoutEndpoint a q)) := by
  obtain ⟨images, rfl, himages⟩ := h
  unfold dropEndpoint withoutEndpoint
  simp only [sequence_withSequence, setSequence_withSequence]
  split
  · split
    · exact .ok ⟨images, rfl, himages⟩
    · exact ensures_releaseDropped_of_gone _ _ himages
  · exact .ok ⟨images, rfl, himages⟩

/-- The loop over the anchors, with those it has been through in `ys`. -/
theorem ensures_dropAnchor_loop (xs ys : List LongAnchorCheckpoint)
    (h : ∀ i, images i = s.images i ∨ images i = none) :
    Ensures ((List.range xs.length).reverse.foldlM (dropAnchor k a.reuseBase)
      (s.withSequence k { q with longAnchors := xs ++ ys } images))
      (Dropping k s { q with
        longAnchors := xs.filter (·.frontier ≤ a.reuseBase) ++ ys }) := by
  induction xs using List.reverseRecOn generalizing ys images with
  | nil => exact .pure ⟨images, rfl, h⟩
  | append_singleton xs x ih =>
    have hrange : (List.range (xs ++ [x]).length).reverse =
        xs.length :: (List.range xs.length).reverse := by
      simp [List.range_succ]
    rw [hrange, List.foldlM_cons, List.filter_append]
    unfold dropAnchor
    simp only [sequence_withSequence, setSequence_withSequence, List.append_assoc,
      List.singleton_append, List.getElem?_append_right (Nat.le_refl _), Nat.sub_self,
      List.getElem?_cons_zero, List.eraseIdx_append_of_length_le (Nat.le_refl _),
      List.eraseIdx_cons_zero]
    by_cases hx : x.frontier ≤ a.reuseBase
    · rw [if_pos hx, List.filter_cons_of_pos (by simpa using hx)]
      exact ih (x :: ys) h
    · rw [if_neg hx, List.filter_cons_of_neg (by simpa using hx)]
      refine .bind (ensures_releaseDropped_of_gone _ _ h) ?_
      rintro _ ⟨images', rfl, h'⟩
      exact ih ys h'

theorem ensures_dropAnchors (h : Dropping k s q t) :
    Ensures (dropAnchors k a.reuseBase t) (Dropping k s (withoutAnchors a q)) := by
  obtain ⟨images, rfl, himages⟩ := h
  unfold dropAnchors
  rw [sequence_withSequence]
  have hloop := ensures_dropAnchor_loop (k := k) (a := a) (q := q) q.longAnchors [] himages
  rw [List.append_nil, List.append_nil] at hloop
  exact hloop

theorem ensures_dropRewrite (h : Dropping k s q t) :
    Ensures (dropRewrite k a t) (Dropping k s (withoutRewrite a q)) := by
  obtain ⟨images, rfl, himages⟩ := h
  unfold dropRewrite withoutRewrite
  simp only [sequence_withSequence, setSequence_withSequence]
  by_cases hcond : a.reuse = .privateEndpoint ∧ a.rewriteDisposition ≠ .retainExisting
  · rw [if_pos hcond]
    split
    · next hnone =>
      rw [if_neg fun h => h.2 hnone]
      exact .ok ⟨images, rfl, himages⟩
    · next rewrite hrewrite =>
      rw [if_pos ⟨hcond, by simp [hrewrite]⟩]
      exact ensures_releaseDropped_of_gone _ _ himages
  · rw [if_neg hcond, if_neg fun h => hcond h.1]
    exact .ok ⟨images, rfl, himages⟩

theorem mem_heldImages {i : Nat} :
    i ∈ q.heldImages ↔ i ∈ q.primaryImages ∨ q.rewriteState = some i ∨ q.reservedState = some i ∨
      ∃ x ∈ q.longAnchors, x.state = i := by
  simp [SequenceState.heldImages]

theorem heldImages_keptSequence (a : AdmissionCandidate) (q : SequenceState) :
    (keptSequence a q).heldImages ⊆ q.heldImages := by
  have hendpoint : (withoutEndpoint a q).heldImages ⊆ q.heldImages := by
    unfold withoutEndpoint
    split
    · intro i hi
      rw [mem_heldImages] at hi ⊢
      exact .inr (hi.resolve_left (by simp [SequenceState.primaryImages]))
    · exact List.Subset.refl _
  have hanchors : ∀ q, (withoutAnchors a q).heldImages ⊆ q.heldImages := by
    intro q i hi
    rw [mem_heldImages] at hi ⊢
    refine hi.imp_right (Or.imp_right (Or.imp_right ?_))
    rintro ⟨x, hx, hstate⟩
    exact ⟨x, List.mem_of_mem_filter hx, hstate⟩
  have hrewrite : ∀ q, (withoutRewrite a q).heldImages ⊆ q.heldImages := by
    intro q
    unfold withoutRewrite
    split
    · intro i hi
      rw [mem_heldImages] at hi ⊢
      exact hi.imp_right fun hi => .inr (hi.resolve_left (by simp))
    · exact List.Subset.refl _
  exact List.Subset.trans (hrewrite _) (List.Subset.trans (hanchors _) hendpoint)

/-! ## The truncation -/

theorem truncateTail_pages (s : Residents) (c : KVClass) (l : List Nat) (frontier : Nat)
    (prefixFork : Bool) : ∃ pages, s.truncateTail c l frontier prefixFork = { s with pages } ∧
      (∀ d, d ≠ c → pages d = s.pages d) ∧ ∀ p, (pages c p).residency =
        if prefixFork = false ∧ s.changedTail c l frontier = some p then
          ⟨s.pageOnDevice c p, false⟩
        else (s.pages c p).residency := by
  unfold truncateTail
  split
  · next tail htail =>
    refine ⟨_, rfl, fun d hd => update_of_ne hd _ _, fun p => ?_⟩
    rcases eq_or_ne p tail with rfl | hne
    · simp [htail, update_self]
    · rw [htail, if_neg fun h => hne (Option.some.inj h.2).symm]
      simp [update_self, update_of_ne hne]
  · next hnot =>
    refine ⟨s.pages, rfl, fun _ _ => rfl, fun p => (if_neg ?_).symm⟩
    rintro ⟨rfl, htail⟩
    exact hnot p rfl htail

theorem checkTruncation_ok {c : KVClass} {address : KVAddressSpace} {frontier : Nat}
    {prefixFork : Bool} {u : Unit} (h : s.checkTruncation c address frontier prefixFork = .ok u) :
    address.entitlement = none := by
  unfold checkTruncation at h
  split at h
  · exact (not_not.mp (throwIf_ok h)).1
  · obtain ⟨_, _, h⟩ := bind_eq_ok h
    obtain ⟨_, _, h⟩ := bind_eq_ok h
    exact (not_not.mp (throwIf_ok h)).1.1

/-- The bundle of an inactive owner. -/
structure Inactive (kv : SequenceKVBundle) : Prop where
  text : kv.text.entitlement = none
  backend : ∀ address ∈ kv.backend, address.entitlement = none

/-- Pages after the truncation: a tail cut in place has lost its Host replica. -/
def TailCut (s : Residents) (a : AdmissionCandidate) (kv : SequenceKVBundle)
    (pages : KVClass → Nat → KVPage) : Prop :=
  ∀ c p, (pages c p).residency = if s.cutInPlace a c (kv.pages c) p then
    ⟨s.pageOnDevice c p, false⟩ else (s.pages c p).residency

theorem ensures_truncateSource (k : Nat) (a : AdmissionCandidate) (t : Residents) :
    Ensures (truncateSource k a t) fun u => ∃ kv pages, (t.continuations k).sequence.kv = some kv ∧
      Inactive kv ∧ TailCut t a kv pages ∧ u = { t with pages }.setSequence k fun q => { q with
        kv := some (truncated kv (t.frontierOf a.reuseBase .main)
          (t.frontierOf a.reuseBase .backend)) } := by
  intro u hu
  unfold truncateSource at hu
  split at hu
  · cases hu
  · next kv hkv =>
    obtain ⟨_, hmain, hu⟩ := bind_eq_ok hu
    obtain ⟨_, hbackend, hu⟩ := bind_eq_ok hu
    cases hu
    obtain ⟨pm, hpm, hpmOther, hpmTail⟩ := t.truncateTail_pages .main (kv.pages .main)
      (t.frontierOf a.reuseBase .main) (a.prefixForkRequired .main)
    obtain ⟨pb, hpb, hpbOther, hpbTail⟩ := { t with pages := pm }.truncateTail_pages .backend
      (kv.pages .backend) (t.frontierOf a.reuseBase .backend) (a.prefixForkRequired .backend)
    refine ⟨kv, pb, hkv, ⟨checkTruncation_ok hmain, ?_⟩, ?_, by rw [hpm, hpb]⟩
    · intro address haddress
      simp only [checkBackendTruncation, Option.mem_def.mp haddress] at hbackend
      exact checkTruncation_ok hbackend
    · intro c p
      cases c with
      | main =>
        rw [hpbOther .main (by decide)]
        exact hpmTail p
      | backend =>
        -- The main pages do not matter to the backend's tail.
        have hback : pm .backend = t.pages .backend := hpmOther .backend (by decide)
        have htail := hpbTail p
        simp only [changedTail, pageOnDevice, hback] at htail
        exact htail

/-! ## Before and after -/

/-- The source afterwards. -/
def cutSequence (s : Residents) (a : AdmissionCandidate) (kv : SequenceKVBundle)
    (q : SequenceState) : SequenceState :=
  { keptSequence a q with
    kv := some (truncated kv (s.frontierOf a.reuseBase .main) (s.frontierOf a.reuseBase .backend)) }

/-- The state that consuming the source in slot `k` leaves. -/
structure Consumed (k : Nat) (a : AdmissionCandidate) (s : Residents) (q : SequenceState)
    (kv : SequenceKVBundle) (images : Nat → Option StateImage) (pages : KVClass → Nat → KVPage)
    (t : Residents) : Prop where
  has : k < s.continuationCapacity
  sequence : (s.continuations k).sequence = q
  source : q.kv = some kv
  inactive : Inactive kv
  gone : ∀ i, images i = s.images i ∨ images i = none
  tail : TailCut s a kv pages
  state : t = { s.withSequence k (s.cutSequence a kv q) images with pages }

/-- What a release that got to its last check went through. -/
theorem consumedRelease_ok {removed : PhysicalResources}
    (h : s.consumedRelease a = .ok (t, removed)) :
    ∃ q kv images pages before after, Consumed a.sourceIndex a s q kv images pages t ∧
      s.ownerExclusiveResources q = .ok before ∧
      t.ownerExclusiveResources (s.cutSequence a kv q) = .ok after ∧ removed = before - after := by
  obtain ⟨_, hcap, h⟩ := bind_eq_ok h
  obtain ⟨_, _, h⟩ := bind_eq_ok h
  obtain ⟨before, hbefore, h⟩ := bind_eq_ok h
  obtain ⟨t₁, h₁, h⟩ := bind_eq_ok h
  obtain ⟨t₂, h₂, h⟩ := bind_eq_ok h
  obtain ⟨t₃, h₃, h⟩ := bind_eq_ok h
  obtain ⟨u, hu, h⟩ := bind_eq_ok h
  obtain ⟨after, hafter, h⟩ := bind_eq_ok h
  obtain ⟨rest, hrest, h⟩ := bind_eq_ok h
  cases h
  have hdrop₁ := ensures_dropEndpoint (a := a) (Dropping.refl a.sourceIndex s) t₁ h₁
  have hdrop₂ := ensures_dropAnchors (a := a) hdrop₁ t₂ h₂
  obtain ⟨images, rfl, hgone⟩ := ensures_dropRewrite hdrop₂ t₃ h₃
  obtain ⟨kv, pages, hkv, hinactive, htail, htrunc⟩ := ensures_truncateSource _ _ _ _ hu
  rw [sequence_withSequence] at hkv
  have hsource : (s.continuations a.sourceIndex).sequence.kv = some kv := by
    rw [← hkv]
    unfold withoutRewrite withoutAnchors withoutEndpoint
    split <;> split <;> rfl
  have hstate : t = { s.withSequence a.sourceIndex
      (s.cutSequence a kv (s.continuations a.sourceIndex).sequence) images with pages } := by
    rw [htrunc]
    simp only [withSequence, setSequence, update_self, update_idem]
    rfl
  have hseq : (t.continuations a.sourceIndex).sequence =
      s.cutSequence a kv (s.continuations a.sourceIndex).sequence := by
    rw [hstate]
    simp [withSequence, update_self]
  rw [hseq] at hafter
  have hhas : a.sourceIndex < s.continuationCapacity :=
    not_not.mp fun hno => throwIf_ok hcap (.inl hno)
  exact ⟨_, kv, images, pages, before, after,
    ⟨hhas, rfl, hsource, hinactive, hgone, htail, hstate⟩, hbefore, hafter,
    checkedResourceDifference_ok hrest⟩

theorem pages_truncated (kv : SequenceKVBundle) (frontier : KVClass → Nat) (c : KVClass) :
    (truncated kv (frontier .main) (frontier .backend)).pages c =
      (kv.pages c).take (kvPagesForFrontier (frontier c)) := by
  cases c with
  | main => rfl
  | backend =>
    unfold truncated SequenceKVBundle.pages
    cases kv.backend with
    | none => exact List.take_nil.symm
    | some address => rfl

theorem pages_of_kv {kv : SequenceKVBundle} (h : q.kv = some kv) (c : KVClass) :
    q.pages c = kv.pages c := by
  simp [SequenceState.pages, h]

/-- What a sum of exclusive resources that was returned consists of. -/
theorem ownerExclusiveResources_ok {r : PhysicalResources}
    (h : s.ownerExclusiveResources q = .ok r) :
    ∃ kv main backend, q.kv = some kv ∧ (∀ i ∈ q.heldImages, s.images i ≠ none) ∧
      growth kv.text = .ok main ∧ backendGrowth kv = .ok backend ∧
      r = s.imageSlots (s.exclusiveImages q) + s.exclusiveKv kv +
        { device := { mainKvPages := main, backendKvPages := backend } } := by
  obtain ⟨states, hstates, h⟩ := bind_eq_ok h
  obtain ⟨_, _, hstates⟩ := bind_eq_ok hstates
  obtain ⟨_, _, hstates⟩ := bind_eq_ok hstates
  obtain ⟨_, hstale, hstates⟩ := bind_eq_ok hstates
  obtain ⟨_, hanchor, hstates⟩ := bind_eq_ok hstates
  cases hstates
  have hheld : ∀ i ∈ q.heldImages, s.images i ≠ none := by
    intro i hi hnone
    rcases List.mem_append.mp hi with hi | hi
    · exact throwIf_ok hstale ⟨i, hi, hnone⟩
    · obtain ⟨x, hx, rfl⟩ := List.mem_map.mp hi
      exact throwIf_ok hanchor ⟨x, hx, hnone⟩
  cases hkv : q.kv with
  | none =>
    rw [hkv] at h
    cases h
  | some kv =>
    rw [hkv] at h
    obtain ⟨main, hmain, h⟩ := bind_eq_ok h
    obtain ⟨backend, hbackend, h⟩ := bind_eq_ok h
    obtain ⟨_, _, h⟩ := bind_eq_ok h
    cases h
    exact ⟨kv, main, backend, rfl, hheld, hmain, hbackend, rfl⟩

/-- An inactive owner has nothing to grow by. -/
theorem ownerExclusiveResources_inactive {kv : SequenceKVBundle} {r : PhysicalResources}
    (hkv : q.kv = some kv) (hinactive : Inactive kv) (h : s.ownerExclusiveResources q = .ok r) :
    r = (s.alone q).size s.pageStride q := by
  obtain ⟨kv', main, backend, hkv', -, hmain, hbackend, rfl⟩ := ownerExclusiveResources_ok h
  obtain rfl := Option.mem_unique hkv' hkv
  have hmain0 : main = 0 := by
    rw [growth, hinactive.text] at hmain
    cases hmain
    rfl
  have hbackend0 : backend = 0 := by
    unfold backendGrowth at hbackend
    split at hbackend
    · cases hbackend
      rfl
    · next address haddress =>
      rw [growth, hinactive.backend address haddress] at hbackend
      cases hbackend
      rfl
  have himages : ∀ r, (s.exclusiveImages q).countP (s.imageHas r) =
      q.heldImages.dedup.countP ((s.alone q).image r) := by
    intro r
    refine (countP_dedup_of_subset (List.filter_subset_self _) ?_ ?_).symm
    · intro i hi
      have hex := (List.mem_filter.mp hi).2
      simp only [alone, hex, Bool.and_true]
    · intro i hi hnot
      have hex : ¬ s.stateExclusiveToSequence q i := fun hex =>
        hnot (List.mem_filter.mpr ⟨hi, decide_eq_true hex⟩)
      simp only [alone, hex, decide_false, Bool.and_false]
  have hpages : ∀ c r, (s.exclusivePages c (kv'.pages c)).countP
      (fun p => (s.pages c p).residency.has r) = (q.pages c).countP ((s.alone q).page c r) := by
    intro c r
    rw [pages_of_kv hkv, exclusivePages, List.countP_filter]
    rfl
  subst hmain0 hbackend0
  ext
  · rfl
  · exact himages .device
  · exact (Nat.zero_add _).trans (hpages .main .device)
  · exact (Nat.zero_add _).trans (hpages .backend .device)
  · exact himages .host
  · refine (Nat.zero_add _).trans ?_
    exact congrArg₂ (· + ·) (congrArg _ (hpages .main .host)) (congrArg _ (hpages .backend .host))

section Release

variable {kv : SequenceKVBundle} {pages : KVClass → Nat → KVPage}
  (h : Consumed k a s q kv images pages t)

include h

/-- References to images change by what the source itself had. -/
theorem checkpointReferences_consumed (i : Nat) :
    t.checkpointReferences i + q.ownedCheckpointReferences i =
      s.checkpointReferences i + (s.cutSequence a kv q).ownedCheckpointReferences i := by
  have htally := tally_update s.continuationCapacity k h.has s.continuations
    { s.continuations k with sequence := s.cutSequence a kv q }
    fun slot => slot.sequence.checkpointImages.count i
  rw [h.state]
  simp only [checkpointReferences, total, checkpointImages, withSequence,
    SequenceState.ownedCheckpointReferences]
  simp only [h.sequence] at htally
  omega

/-- References to the pages the request keeps stay as they are. -/
theorem addressReferences_consumed {c : KVClass} {p : Nat}
    (hp : p ∉ (q.pages c).drop (s.keptPages a c)) :
    t.addressReferences c p = s.addressReferences c p := by
  rw [h.state]
  refine total_congr rfl rfl fun o => ?_
  cases o with
  | sharedPrefix j => rfl
  | continuation j =>
    rcases eq_or_ne j k with rfl | hne
    · have hcut : (s.cutSequence a kv q).pages c = (kv.pages c).take (s.keptPages a c) :=
        pages_truncated kv (s.frontierOf a.reuseBase) c
      have hown := pages_of_kv h.source c
      rw [hown] at hp
      simp only [ownedPages, withSequence, update_self, hcut, h.sequence, hown]
      conv_rhs => rw [← List.take_append_drop (s.keptPages a c) (kv.pages c), List.count_append,
        List.count_eq_zero.mpr hp]
      rfl
    · simp [ownedPages, withSequence, update_of_ne hne]

/-- An image the source keeps is its own afterwards when it was before. -/
theorem alone_image_consumed (hheld : ∀ i ∈ (s.cutSequence a kv q).heldImages, t.images i ≠ none)
    (r : Replica) {i : Nat} (hi : i ∈ (keptSequence a q).heldImages) :
    (t.alone (s.cutSequence a kv q)).image r i = (s.alone q).image r i := by
  have himages : t.images = images := by rw [h.state]; rfl
  have himage : t.images i = s.images i := by
    have hsome := hheld i hi
    rw [himages] at hsome ⊢
    exact (h.gone i).resolve_right hsome
  have hhas : t.imageHas r i = s.imageHas r i := by
    cases r <;> simp only [imageHas, imageOnDevice, imageOnHost, himage]
  have hrefs := checkpointReferences_consumed h i
  have hex : t.stateExclusiveToSequence (s.cutSequence a kv q) i ↔
      s.stateExclusiveToSequence q i := by
    unfold stateExclusiveToSequence
    rw [himage]
    refine and_congr_right fun _ => ?_
    omega
  simp only [alone, hhas, hex]

/-- What the source does not give up is what it holds alone afterwards. -/
theorem size_alone_consumed (hmaps : ∀ c, (q.pages c).Nodup)
    (hheld : ∀ i ∈ (s.cutSequence a kv q).heldImages, t.images i ≠ none) :
    ((s.alone q).diff (s.givenUp a q)).size s.pageStride q =
      (t.alone (s.cutSequence a kv q)).size t.pageStride (s.cutSequence a kv q) := by
  have himages : ∀ r, q.heldImages.dedup.countP (((s.alone q).diff (s.givenUp a q)).image r) =
      (s.cutSequence a kv q).heldImages.dedup.countP
        ((t.alone (s.cutSequence a kv q)).image r) := by
    intro r
    refine countP_dedup_of_subset (heldImages_keptSequence a q) ?_ ?_
    · intro i hi
      rw [alone_image_consumed h hheld r hi]
      have hin : i ∈ (keptSequence a q).heldImages := hi
      simp [Portion.diff, givenUp, hin]
    · intro i _ hi
      have hout : i ∉ (keptSequence a q).heldImages := hi
      simp [Portion.diff, givenUp, hout]
  have hpages : ∀ c r, (q.pages c).countP (((s.alone q).diff (s.givenUp a q)).page c r) =
      ((s.cutSequence a kv q).pages c).countP ((t.alone (s.cutSequence a kv q)).page c r) := by
    intro c r
    have hown := pages_of_kv h.source c
    have hcut : (s.cutSequence a kv q).pages c = (q.pages c).take (s.keptPages a c) :=
      (pages_truncated kv (s.frontierOf a.reuseBase) c).trans (congrArg _ hown.symm)
    have hsplit := List.take_append_drop (s.keptPages a c) (q.pages c)
    have hdisj := List.disjoint_of_nodup_append (hsplit ▸ hmaps c)
    have hpast : ((q.pages c).drop (s.keptPages a c)).countP
        (((s.alone q).diff (s.givenUp a q)).page c r) = 0 :=
      List.countP_eq_zero.mpr fun p hp => by simp [Portion.diff, givenUp, hp]
    conv_lhs => rw [← hsplit, List.countP_append, hpast, Nat.add_zero]
    rw [hcut]
    refine List.countP_congr fun p hp => ?_
    have hout : p ∉ (q.pages c).drop (s.keptPages a c) := hdisj hp
    have hpages : t.pages = pages := by rw [h.state]
    have hres := h.tail c p
    rw [← hown, ← hpages] at hres
    simp only [alone, Portion.diff, givenUp, hout, addressReferences_consumed h hout, hres,
      false_or]
    by_cases htail : s.cutInPlace a c (q.pages c) p
    · cases r <;> simp [htail, Residency.has, pageOnDevice]
    · simp [htail]
  have hstride : t.pageStride = s.pageStride := by rw [h.state]; rfl
  rw [hstride]
  ext
  · rfl
  · exact himages .device
  · exact hpages .main .device
  · exact hpages .backend .device
  · exact himages .host
  · exact congrArg₂ (· + ·) (congrArg _ (hpages .main .host)) (congrArg _ (hpages .backend .host))

end Release

/-- The release frees what the source gives up and holds alone. -/
theorem consumedRelease_removed {removed : PhysicalResources}
    (hmaps : ∀ c, (s.ownedPages (.continuation a.sourceIndex) c).Nodup)
    (h : s.consumedRelease a = .ok (t, removed)) :
    ∃ kv, (s.continuations a.sourceIndex).sequence.kv = some kv ∧ Inactive kv ∧
      removed = ((s.givenUp a (s.continuations a.sourceIndex).sequence).inter
        (s.alone (s.continuations a.sourceIndex).sequence)).size s.pageStride
          (s.continuations a.sourceIndex).sequence := by
  obtain ⟨q, kv, images, pages, before, after, hc, hbefore, hafter, rfl⟩ := consumedRelease_ok h
  obtain rfl := hc.sequence
  obtain ⟨_, _, _, hkv, hheld, -, -, -⟩ := ownerExclusiveResources_ok hafter
  have hinactive : Inactive (truncated kv (s.frontierOf a.reuseBase .main)
      (s.frontierOf a.reuseBase .backend)) := by
    refine ⟨hc.inactive.text, fun address haddress => ?_⟩
    obtain ⟨source, hsource, rfl⟩ := Option.mem_map.mp haddress
    exact hc.inactive.backend source hsource
  refine ⟨kv, hc.source, hc.inactive, ?_⟩
  rw [ownerExclusiveResources_inactive hc.source hc.inactive hbefore,
    ownerExclusiveResources_inactive rfl hinactive hafter, ← size_alone_consumed hc hmaps hheld,
    Portion.size_split _ (s.givenUp a (s.continuations a.sourceIndex).sequence),
    Portion.inter_comm]
  exact PhysicalResources.add_sub_cancel_right _ _

/-! ## What the plan says -/

section Plan

variable {checkpoint : CheckpointRef} {privateVictims sharedVictims : List Victim}

theorem inspectLane_ok {r : RequestBase} (h : s.inspectLane r k checkpoint = .ok a) :
    a.sourceIndex = k ∧
      s.ownerExclusiveResources (s.continuations k).sequence = .ok a.demand.finalRemoved := by
  obtain ⟨path, _, h⟩ := bind_eq_ok h
  obtain ⟨_, _, h⟩ := bind_eq_ok h
  obtain ⟨_, _, h⟩ := bind_eq_ok h
  obtain ⟨_, _, h⟩ := bind_eq_ok h
  obtain ⟨_, _, h⟩ := bind_eq_ok h
  obtain ⟨source, hsource, h⟩ := bind_eq_ok h
  split at h
  · cases h
  · obtain ⟨_, _, h⟩ := bind_eq_ok h
    obtain ⟨_, _, h⟩ := bind_eq_ok h
    obtain ⟨_, _, h⟩ := bind_eq_ok h
    cases h
    exact ⟨rfl, hsource⟩

/-- Making a fork a move leaves the source and what it removes as they were. -/
def SameRemoval (a b : AdmissionCandidate) : Prop :=
  b.sourceIndex = a.sourceIndex ∧ b.demand.finalRemoved = a.demand.finalRemoved

theorem ensures_rederiveStateMove (s : Residents) (a : AdmissionCandidate)
    (projected : Option Bool) :
    Ensures (s.rederiveStateMove a projected) (SameRemoval a) := by
  refine .ite (fun _ => .ok ⟨rfl, rfl⟩) fun _ => ?_
  refine .skip fun _ => .skip fun _ => ?_
  refine .ite (fun _ => .pure ⟨rfl, rfl⟩) fun _ => ?_
  refine .skip fun _ => .skip fun _ => ?_
  exact .skip fun _ => .pure ⟨rfl, rfl⟩

theorem ensures_rederivePrefixMove (s : Residents) (c : KVClass) (projected : Option Bool)
    (a : AdmissionCandidate) :
    Ensures (s.rederivePrefixMove c projected a) (SameRemoval a) := by
  refine .ite (fun _ => .ok ⟨rfl, rfl⟩) fun _ => ?_
  refine .skip fun _ => .skip fun _ => ?_
  split
  · exact .error _
  · refine .skip fun _ => .skip fun _ => ?_
    refine .ite (fun _ => ?_) fun _ => ?_
    · refine .skip fun _ => ?_
      exact .skip fun _ => .pure ⟨rfl, rfl⟩
    · refine .skip fun _ => ?_
      exact .skip fun _ => .pure ⟨rfl, rfl⟩

theorem projectedDemand_ok {d e : PhysicalDemand} {p : PressureTargetProjection}
    (h : projectedDemand d p = .ok e) : e.finalRemoved =
      d.finalRemoved + (p.uniqueObjectDelta.removed + p.ownershipTransferDelta.removed) := by
  obtain ⟨_, _, h⟩ := bind_eq_ok h
  obtain ⟨_, _, h⟩ := bind_eq_ok h
  obtain ⟨_, _, h⟩ := bind_eq_ok h
  obtain ⟨r₁, h₁, h⟩ := bind_eq_ok h
  obtain ⟨r₂, h₂, h⟩ := bind_eq_ok h
  obtain ⟨_, _, h⟩ := bind_eq_ok h
  obtain ⟨_, _, h⟩ := bind_eq_ok h
  obtain ⟨_, _, h⟩ := bind_eq_ok h
  obtain ⟨_, _, h⟩ := bind_eq_ok h
  cases h
  rw [checkedResourceSum_ok h₂, checkedResourceSum_ok h₁, PhysicalResources.add_assoc]

theorem checkPrivateVictim_ok {protection : SourceProtection} {seen next : List Nat} {v : Victim}
    (h : s.checkPrivateVictim protection a seen v = .ok next) : v.index ≠ a.sourceIndex := by
  obtain ⟨_, _, h⟩ := bind_eq_ok h
  obtain ⟨_, hdup, h⟩ := bind_eq_ok h
  exact fun he => throwIf_ok hdup (.inl he)

/-- What the plan with its victims adds to `final_removed`: what the victims free together, and
    what of the kept prefix and checkpoints they leave to the source alone. -/
def victimsRemoved (s : Residents) (plan : AdmissionCandidate)
    (privateVictims sharedVictims : List Victim) : Except Stop PhysicalResources := do
  let protection ← s.materializationSourceProtection plan
  let p ← s.evaluatePressureTarget (some protection) privateVictims sharedVictims
  return p.uniqueObjectDelta.removed + p.ownershipTransferDelta.removed

theorem composePressureCandidate_ok {b : AdmissionCandidate}
    (h : s.composePressureCandidate a privateVictims sharedVictims = .ok b) :
    b.sourceIndex = a.sourceIndex ∧
      (∃ added, s.victimsRemoved a privateVictims sharedVictims = .ok added ∧
        b.demand.finalRemoved = a.demand.finalRemoved + added) ∧
      ∀ v ∈ victimOwners privateVictims sharedVictims, v.1 ≠ .continuation b.sourceIndex := by
  obtain ⟨_, _, h⟩ := bind_eq_ok h
  obtain ⟨protection, hprotection, h⟩ := bind_eq_ok h
  obtain ⟨_, hprivate, h⟩ := bind_eq_ok h
  obtain ⟨_, _, h⟩ := bind_eq_ok h
  obtain ⟨projection, hprojection, h⟩ := bind_eq_ok h
  obtain ⟨a₁, h₁, h⟩ := bind_eq_ok h
  obtain ⟨a₂, h₂, h⟩ := bind_eq_ok h
  obtain ⟨a₃, h₃, h⟩ := bind_eq_ok h
  obtain ⟨demand, hdemand, h⟩ := bind_eq_ok h
  obtain ⟨_, _, h⟩ := bind_eq_ok h
  cases h
  obtain ⟨hi₁, hr₁⟩ := ensures_rederiveStateMove _ _ _ a₁ h₁
  obtain ⟨hi₂, hr₂⟩ := ensures_rederivePrefixMove _ _ _ _ a₂ h₂
  obtain ⟨hi₃, hr₃⟩ := ensures_rederivePrefixMove _ _ _ _ a₃ h₃
  have hindex : a₃.sourceIndex = a.sourceIndex := hi₃.trans (hi₂.trans hi₁)
  have hremoved := projectedDemand_ok hdemand
  rw [hr₃, hr₂, hr₁] at hremoved
  refine ⟨hindex, ⟨_, ?_, hremoved⟩, ?_⟩
  · unfold victimsRemoved
    rw [hprotection]
    simp only [bind, Except.bind, hprojection]
    rfl
  · intro v hv
    rcases List.mem_append.mp hv with hv | hv
    · obtain ⟨w, _, rfl⟩ := List.mem_map.mp hv
      simp
    · obtain ⟨w, hw, rfl⟩ := List.mem_map.mp hv
      obtain ⟨_, _, hstep⟩ := mem_of_foldlM_ok hprivate hw
      exact fun he => checkPrivateVictim_ok hstep ((Owner.continuation.inj he).trans hindex)

end Plan

/-- What the source gives up and holds alone in `s'`, with the victims gone, but did not at
    planning time is at most what it held alone then and does not give up so, together with what
    the plan adds for the victims. -/
def Covered (s s' : Residents) (plan a : AdmissionCandidate)
    (privateVictims sharedVictims : List Victim) : Prop :=
  let q := (s.continuations a.sourceIndex).sequence
  let freed := (s'.givenUp a q).inter (s'.alone q)
  ∃ added, s.victimsRemoved plan privateVictims sharedVictims = .ok added ∧
    (freed.diff (s.alone q)).size s.pageStride q ≤
      ((s.alone q).diff freed).size s.pageStride q + added

theorem prepareConsumedSource_of_not_le {removed : PhysicalResources}
    (h : s.consumedRelease a = .ok (t, removed)) (hnot : ¬ removed ≤ a.demand.finalRemoved) :
    s.prepareConsumedSource a =
      .error (.fault (.logicError "Qwen3.6 resource subtraction underflow")) := by
  simp [prepareConsumedSource, h, bind, Except.bind, checkedResourceDifference, throwIf,
    if_pos hnot]

/-- From the plan to the last check. -/
def runConsumed (s : Residents) (r : RequestBase) (k : Nat) (checkpoint : CheckpointRef)
    (victim : Victim) :
    Except Stop (AdmissionCandidate × AdmissionCandidate × Residents × Residents ×
      PhysicalResources) := do
  let plan ← s.inspectLane r k checkpoint
  let a ← s.composePressureCandidate plan [victim] []
  let s' ← s.executePressure [victim] []
  let (t, removed) ← s'.consumedRelease a
  return (plan, a, s', t, removed)

theorem runConsumed_ok {s s' t : Residents} {r : RequestBase} {k : Nat}
    {checkpoint : CheckpointRef} {victim : Victim} {plan a : AdmissionCandidate}
    {removed : PhysicalResources}
    (h : s.runConsumed r k checkpoint victim = .ok (plan, a, s', t, removed)) :
    s.inspectLane r k checkpoint = .ok plan ∧
      s.composePressureCandidate plan [victim] [] = .ok a ∧
      s.executePressure [victim] [] = .ok s' ∧ s'.consumedRelease a = .ok (t, removed) := by
  obtain ⟨plan, hplan, h⟩ := bind_eq_ok h
  obtain ⟨_, hseal, h⟩ := bind_eq_ok h
  obtain ⟨_, hexec, h⟩ := bind_eq_ok h
  obtain ⟨_, hrelease, h⟩ := bind_eq_ok h
  cases h
  exact ⟨hplan, hseal, hexec, hrelease⟩

def turn : RequestBase where
  rootActive := { activeLanes := 1, stateSlots := 1, mainKvPages := 20 }

def closedTurn : CheckpointRef := { kind := .turnClosure, frontier := 128 }

/-- Continuation 1 has gone on from continuation 0, and has a closed turn of its own if it has an
    image for it. -/
def forkedContinuations (rewriteState : Option Nat) : Residents where
  speculativeBackend := .none
  maxLongAnchors := 0
  hostStateImages := false
  hostKvExtents := false
  pageStride := fun _ => 4096
  images := fun i => if i < 3 ∨ rewriteState = some i then some { residency := ⟨true, false⟩ }
    else none
  pages := fun _ _ => { residency := ⟨true, false⟩ }
  continuationCapacity := 2
  continuations := fun k => match k with
    | 0 => {
      role := .catalogued
      sequence := {
        kv := some { text := { pages := List.range 10 } }
        state := { read := some 0, write := some 0 }
        rewriteState := some 1
        executionFrontier := 640
        endpointValid := true
        rewriteCheckpoint := some { kind := .turnClosure, frontier := 128 } } }
    | 1 => {
      role := .catalogued
      sequence := {
        kv := some { text := { pages := List.range 11 } }
        state := { read := some 2, write := some 2 }
        rewriteState
        executionFrontier := 704
        endpointValid := true
        rewriteCheckpoint := rewriteState.map fun _ => { kind := .turnClosure, frontier := 128 } } }
    | _ => {}
  sharedPrefixCapacity := 0
  sharedPrefixes := fun _ => {}

/-- The eviction of continuation 1 with the page it holds alone. -/
def evictSecond : Victim where
  index := 1
  decision := {
    id := maxU64
    effect := { removed := { device := { stateSlots := 1, mainKvPages := 1 } } }
    checkpointDrops := 1
    evictsContinuation := true }

/-- Continuation 1 gives up its closed turn only, and so keeps all its pages. -/
def dropSecondTurn : Victim where
  index := 1
  decision := {
    id := 1
    effect := { removed := { device := { stateSlots := 1 } } }
    checkpointDrops := 1
    droppedCheckpoints := [closedTurn]
    checkpointDropEffect := { removed := { device := { stateSlots := 1 } } } }

end Residents

end Ninfer.Qwen
