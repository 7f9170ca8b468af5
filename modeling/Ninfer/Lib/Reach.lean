/-
  Runs of a stateful system, and the one induction every safety theorem uses.

  A run starts in a state of `init` and issues commands; `may c s` says when the environment
  is allowed to issue `c`. A command that throws still moves the system to the state the
  throw left behind. A dead command ends the run.
-/
import Ninfer.Lib.Eff

namespace Lib

variable {σ κ : Type}

/-- The states reached from `init` by commands of `run`, each issued where `may` allows. -/
inductive Reach (init : σ → Prop) (run : κ → Eff σ Unit) (may : κ → σ → Prop) : σ → Prop where
  | start {s : σ} (h : init s) : Reach init run may s
  | next {s t : σ} (c : κ) (h : Reach init run may s) (hm : may c s)
      (hl : (run c s).Lands t) : Reach init run may t

/-- The postcondition of a step that keeps `I`, whichever way the step ends. -/
def keeps {α : Type} (I : σ → Prop) : Post σ α := ⟨fun _ => I, fun _ => I, True⟩

section

variable {init : σ → Prop} {run : κ → Eff σ Unit} {may may' : κ → σ → Prop} {I : σ → Prop} {s : σ}

/-- Holds initially and kept by every allowed command: holds in every reached state. -/
theorem Reach.inv (h : Reach init run may s) (h0 : ∀ s, init s → I s)
    (hstep : ∀ c s, I s → may c s → wp (run c) (keeps I) s) : I s := by
  induction h with
  | start h => exact h0 _ h
  | next c _ hm hl ih => exact wp_lands (hstep c _ ih hm) hl

variable {α : Type}

theorem wp_discard_keeps {m : Eff σ α} (h : wp m (keeps I) s) :
    wp (do let _ ← m) (keeps I) s :=
  (wp_bind m _).mpr h

theorem wp_forEach_keeps {β : Type} {l : List β} {body : β → Eff σ Unit}
    (h : ∀ b ∈ l, ∀ s, I s → wp (body b) (keeps I) s) (hs : I s) :
    wp (Eff.forEach l body) (keeps I) s := by
  induction l generalizing s with
  | nil => exact hs
  | cons b l ih =>
    rw [wp_forEach_cons]
    refine wp_imp (h b (by simp) s hs) (fun _ t ht => ?_)
    exact ih (fun c hc => h c (by simp [hc])) ht

theorem wp_collect_keeps {α β : Type} {l : List β} {body : β → Eff σ α}
    (h : ∀ b ∈ l, ∀ s, I s → wp (body b) (keeps I) s) (hs : I s) :
    wp (Eff.collect l body) (keeps I) s := by
  induction l generalizing s with
  | nil => exact hs
  | cons b l ih =>
    rw [wp_collect_cons]
    refine wp_imp (h b (by simp) s hs) (fun a t ht => ?_)
    exact ih (fun c hc => h c (by simp [hc])) ht

/-- From any state of `I` the call ends in a state of `I`, whichever way it ends. -/
def Preserves (I : σ → Prop) (m : Eff σ α) : Prop := ∀ s, I s → wp m (keeps I) s

theorem Preserves.pure (a : α) : Preserves I (Pure.pure a : Eff σ α) := fun _ hs => hs

theorem Preserves.raise (e : Fault) : Preserves I (Eff.raise e : Eff σ α) :=
  fun _ hs => hs

theorem Preserves.die : Preserves I (Eff.die : Eff σ α) := fun _ _ => trivial

theorem Preserves.deref {o : Option α} : Preserves I (Eff.deref o : Eff σ α) :=
  fun _ hs => (wp_deref o).mpr ⟨fun _ _ => hs, fun _ => trivial⟩

theorem Preserves.modify {f : σ → σ} (h : ∀ s, I s → I (f s)) : Preserves I (Eff.modify f) := h

/-- A call that only reads preserves everything. -/
theorem Preserves.of_checks {m : Eff σ α} {Q : σ → α → Prop}
    (h : ∀ s, Checks m s (Q s)) : Preserves I m := by
  intro s hs
  refine wp_mono (h s) ?_ ?_ False.elim
  · rintro _ t ⟨rfl, _⟩
    exact hs
  · rintro _ t rfl
    exact hs

theorem Preserves.bind {α β : Type} {m : Eff σ α} {f : α → Eff σ β} (h : Preserves I m)
    (hf : ∀ a, Preserves I (f a)) : Preserves I (m >>= f) := fun s hs =>
  (wp_bind m f).mpr (wp_imp (h s hs) (fun a t ht => hf a t ht))

/-- The state is read while the invariant holds of it. -/
theorem Preserves.get_bind {f : σ → Eff σ α} (h : ∀ s, I s → Preserves I (f s)) :
    Preserves I (Eff.get >>= f) := fun s hs =>
  (wp_bind _ _).mpr (h s hs s hs)

theorem Preserves.ite {c : Prop} [Decidable c] {m n : Eff σ α} (hm : Preserves I m)
    (hn : Preserves I n) : Preserves I (if c then m else n) := by
  split
  · exact hm
  · exact hn

theorem Preserves.when {c : Prop} [Decidable c] {m : Eff σ Unit} (h : Preserves I m) :
    Preserves I (Eff.when c m) :=
  .ite h (.pure ())

theorem Preserves.forEach {β : Type} {l : List β} {body : β → Eff σ Unit}
    (h : ∀ b, Preserves I (body b)) : Preserves I (Eff.forEach l body) := fun _ hs =>
  wp_forEach_keeps (fun b _ => h b) hs

theorem Preserves.swallow {m : Eff σ Unit} (h : Preserves I m) : Preserves I (Eff.swallow m) :=
  fun s hs => (wp_swallow m).mpr (wp_imp (h s hs) (fun _ _ ht => ht))

/-- A run that keeps to the stricter rules is a run under the laxer ones. -/
theorem Reach.mono (h : Reach init run may s) (hm : ∀ c s, may c s → may' c s) :
    Reach init run may' s := by
  induction h with
  | start h => exact .start h
  | next c _ hc hl ih => exact .next c ih (hm _ _ hc) hl

end

/-- The state a list of allowed commands ends in, computed; none when a command is not
    allowed or dead. -/
def trace (run : κ → Eff σ Unit) (may : κ → σ → Prop) [∀ c s, Decidable (may c s)] :
    List κ → σ → Option σ
  | [], s => some s
  | c :: cs, s =>
    if may c s then
      match run c s with
      | .ok _ t => trace run may cs t
      | .throw _ t => trace run may cs t
      | .dead => none
    else none

theorem Reach.of_trace {init : σ → Prop} {run : κ → Eff σ Unit} {may : κ → σ → Prop}
    [∀ c s, Decidable (may c s)] {cs : List κ} {s t : σ} (h : Reach init run may s)
    (ht : trace run may cs s = some t) : Reach init run may t := by
  induction cs generalizing s with
  | nil => exact Option.some.inj ht ▸ h
  | cons c cs ih =>
    simp only [trace] at ht
    split at ht
    next hm =>
      cases hr : run c s with
      | ok a u => rw [hr] at ht; exact ih (.next c h hm (by rw [hr]; rfl)) ht
      | throw e u => rw [hr] at ht; exact ih (.next c h hm (by rw [hr]; rfl)) ht
      | dead => rw [hr] at ht; simp at ht
    next => simp at ht

/-- What a trace from an initial state shows, it shows of a reached state. -/
theorem Reach.of_trace_map {init : σ → Prop} {run : κ → Eff σ Unit} {may : κ → σ → Prop}
    [∀ c s, Decidable (may c s)] {cs : List κ} {s : σ} {β : Type} {f : σ → β} {b : β}
    (h : init s) (hrun : (trace run may cs s).map f = some b) :
    ∃ t, Reach init run may t ∧ f t = b := by
  obtain ⟨t, ht, hf⟩ := Option.map_eq_some_iff.mp hrun
  exact ⟨t, .of_trace (.start h) ht, hf⟩

end Lib
