/-
  What pressure leaves alone.

  Every step that carries a decision out works on its own victim, on pages and on images. The
  slots of all other continuations stay as they are, and so they do over the whole transition.
-/
import Ninfer.Qwen.Pressure

namespace Ninfer.Qwen

open Lib Function
open Resources (CheckpointRef)

namespace Residents

/-- `t` has the continuation `k` as `s` has it. -/
structure Spares (k : Nat) (s t : Residents) : Prop where
  continuationCapacity : t.continuationCapacity = s.continuationCapacity
  speculativeBackend : t.speculativeBackend = s.speculativeBackend
  pageStride : t.pageStride = s.pageStride
  continuation : t.continuations k = s.continuations k

theorem Spares.refl (k : Nat) (s : Residents) : Spares k s s := ⟨rfl, rfl, rfl, rfl⟩

/-- `t` is `s` but for images that are gone. -/
def ImagesGone (s t : Residents) : Prop :=
  ∃ images, t = { s with images } ∧ ∀ i, images i = s.images i ∨ images i = none

variable {i j k : Nat} {s t u : Residents} {o : Owner}

theorem ImagesGone.refl (t : Residents) : ImagesGone t t := ⟨t.images, rfl, fun _ => .inl rfl⟩

theorem ensures_releaseImage (pinned : String) (i : Nat) (h : ImagesGone t u) :
    Ensures (releaseImage pinned u i) (ImagesGone t) := by
  obtain ⟨images, rfl, himages⟩ := h
  unfold releaseImage
  split
  · exact .ok ⟨images, rfl, himages⟩
  · refine .ite (fun _ => .ok ⟨images, rfl, himages⟩) fun _ => ?_
    refine .skip fun _ => .pure ⟨_, rfl, ?_⟩
    intro j
    rcases eq_or_ne j i with rfl | hne
    · exact .inr (update_self ..)
    · exact (himages j).imp (update_of_ne hne _ _).trans (update_of_ne hne _ _).trans

theorem ensures_releaseDropped (pinned : String) (k : Nat) (t : Residents) (i : Nat) :
    Ensures (releaseDropped pinned k t i) (ImagesGone t) :=
  .ite (fun _ => .ok (ImagesGone.refl t)) fun _ => ensures_releaseImage pinned i (ImagesGone.refl t)

section Steps

variable (h : Spares k s t)

include h

/-- Another continuation is written back, with whatever images. -/
theorem Spares.update (hj : j ≠ k) (slot : ContinuationSlot) (images : Nat → Option StateImage) :
    Spares k s { t with continuations := update t.continuations j slot, images } :=
  { h with continuation := (update_of_ne hj.symm _ _).trans h.continuation }

theorem ensures_releaseVictim (ho : o ≠ .continuation k) :
    Ensures (releaseVictim o t) (Spares k s) := by
  cases o with
  | continuation j =>
    have hj : j ≠ k := fun e => ho (e ▸ rfl)
    unfold releaseVictim releaseContinuation
    dsimp only
    split
    · exact .error _
    · refine .skip fun _ => ?_
      refine (Ensures.foldlM (fun u i _ hu => ensures_releaseImage _ i hu)
        (ImagesGone.refl _)).mono ?_
      rintro u ⟨images, rfl, -⟩
      exact h.update hj {} images
  | sharedPrefix j =>
    unfold releaseVictim releaseSharedPrefix
    dsimp only
    split
    · refine .skip fun _ => .skip fun _ => ?_
      refine (ensures_releaseImage _ _ (ImagesGone.refl _)).mono ?_
      rintro u ⟨images, rfl, -⟩
      exact { h with }
    · exact .error _

theorem ensures_publishCheckpointDrop (ref : CheckpointRef) (hj : j ≠ k) :
    Ensures (publishCheckpointDrop j t ref) (Spares k s) := by
  unfold publishCheckpointDrop
  dsimp only
  split
  · exact .error _
  · exact .error _
  · refine .skip fun _ => ?_
    split
    · exact .error _
    · refine .bind (ensures_releaseDropped _ j _ _) ?_
      rintro u ⟨images, rfl, -⟩
      refine .pure ?_
      simp only [setSequence, update_self, update_idem]
      exact h.update hj _ images

theorem ensures_publishDrops (d : PressureDecision) (ho : o ≠ .continuation k) :
    Ensures (publishDrops o d t) (Spares k s) := by
  cases o with
  | continuation j =>
    refine .foldlM ?_ h
    intro u ref _ hu
    exact ensures_publishCheckpointDrop hu ref fun e => ho (e ▸ rfl)
  | sharedPrefix j => exact .skip fun _ => .pure h

variable (o) (d : PressureDecision) (dropsHost : Bool)

theorem ensures_moveStates : Ensures (moveStates o d dropsHost t) (Spares k s) := by
  refine .foldlM ?_ h
  intro u action _ hu
  split
  · exact .error _
  · unfold moveImage
    split
    · exact .error _
    · exact .skip fun _ => .pure { hu with }

theorem ensures_movePages (c : KVClass) :
    Ensures (movePages o d dropsHost c t) (Spares k s) := by
  refine .foldlM ?_ h
  intro u action _ hu
  refine .skip fun _ => .foldlM ?_ hu
  intro v entry _ hv
  refine .ite (fun _ => ?_) fun _ => ?_
  · exact .skip fun _ => .pure { hv with }
  · exact .skip fun _ => .pure { hv with }

theorem ensures_moveReplicas : Ensures (moveReplicas o d dropsHost t) (Spares k s) := by
  refine .bind (ensures_moveStates o h d dropsHost) fun u hu => ?_
  refine .bind (ensures_movePages o hu d dropsHost .main) fun v hv => ?_
  exact ensures_movePages o hv d dropsHost .backend

end Steps

/-! ## The transition -/

theorem ensures_executePressure (s : Residents) (privateVictims sharedVictims : List Victim)
    (hvictims : ∀ v ∈ victimOwners privateVictims sharedVictims, v.1 ≠ .continuation k) :
    Ensures (s.executePressure privateVictims sharedVictims) (Spares k s) := by
  refine .bind (.foldlM ?_ (Spares.refl k s)) fun t ht => .foldlM ?_ ht
  · intro u v hv hu
    refine .ite (fun _ => ensures_releaseVictim hu (hvictims v hv)) fun _ => ?_
    refine .skip fun _ => .bind (ensures_publishDrops hu v.2 (hvictims v hv)) fun w hw => ?_
    exact ensures_moveReplicas v.1 hw v.2 true
  · intro u v _ hu
    exact .ite (fun _ => .ok hu) fun _ => ensures_moveReplicas v.1 hu v.2 false

end Residents

end Ninfer.Qwen
