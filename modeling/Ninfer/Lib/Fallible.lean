/-
  Pure code that may fail, as `Except Fault`.

  `refuse` is a guard that throws. The rules read a successful result back: what a bind, a guard
  and a loop over a list went through.
-/
import Ninfer.Lib.Eff

namespace Lib

/-- `if (bad) { throw fault; }`. -/
def refuse (bad : Prop) [Decidable bad] (fault : Fault) : Except Fault Unit :=
  if bad then .error fault else .ok ()

theorem refuse_ok {bad : Prop} [Decidable bad] {fault : Fault} {u : Unit}
    (h : refuse bad fault = .ok u) : ¬ bad := by
  intro hbad
  rw [refuse, if_pos hbad] at h
  cases h

/-- What a bind that returned went through. -/
theorem bind_eq_ok {ε α β : Type} {x : Except ε α} {f : α → Except ε β} {b : β}
    (h : (x >>= f) = .ok b) : ∃ a, x = .ok a ∧ f a = .ok b := by
  cases x with
  | error e => cases h
  | ok a => exact ⟨a, rfl, h⟩

theorem bind_eq_ok_iff {ε α β : Type} {x : Except ε α} {f : α → Except ε β} {b : β} :
    (x >>= f) = .ok b ↔ ∃ a, x = .ok a ∧ f a = .ok b := by
  constructor
  · exact bind_eq_ok
  · rintro ⟨a, rfl, h⟩
    exact h

theorem refuse_eq_ok_iff {bad : Prop} [Decidable bad] {fault : Fault} {u : Unit} :
    refuse bad fault = .ok u ↔ ¬ bad := by
  constructor
  · exact refuse_ok
  · intro h
    exact if_neg h

/-- A guard in front of a call. -/
theorem refuse_bind_eq_ok_iff {bad : Prop} [Decidable bad] {fault : Fault} {β : Type}
    {f : Unit → Except Fault β} {b : β} :
    (refuse bad fault >>= f) = .ok b ↔ ¬ bad ∧ f () = .ok b := by
  rw [bind_eq_ok_iff]
  constructor
  · rintro ⟨⟨⟩, h, hf⟩
    exact ⟨refuse_ok h, hf⟩
  · rintro ⟨h, hf⟩
    exact ⟨(), if_neg h, hf⟩

theorem eq_ok_of_toOption {ε α : Type} {x : Except ε α} {a : α} (h : x.toOption = some a) :
    x = .ok a := by
  cases x with
  | error e => cases h
  | ok b =>
    cases h
    rfl

/-- Whatever the call returns satisfies `P`. -/
def Ensures {ε α : Type} (x : Except ε α) (P : α → Prop) : Prop := ∀ a, x = .ok a → P a

namespace Ensures

variable {ε α β σ : Type} {x : Except ε α} {P Q : α → Prop}

theorem pure {a : α} (h : P a) : Ensures (Pure.pure a : Except ε α) P := by
  intro b hb
  cases hb
  exact h

theorem ok {a : α} (h : P a) : Ensures (.ok a : Except ε α) P := pure h

theorem error (e : ε) : Ensures (.error e : Except ε α) P := by
  intro b hb
  cases hb

theorem mono (hx : Ensures x P) (h : ∀ a, P a → Q a) : Ensures x Q := fun a ha => h a (hx a ha)

/-- The rule for a sequence: the second call may use what the first one ensures. -/
theorem bind {R : β → Prop} {f : α → Except ε β} (hx : Ensures x P)
    (hf : ∀ a, P a → Ensures (f a) R) : Ensures (x >>= f) R := by
  intro b hb
  obtain ⟨a, ha, hfa⟩ := bind_eq_ok hb
  exact hf a (hx a ha) b hfa

/-- Nothing need be known of the first call. -/
theorem skip {R : β → Prop} {f : α → Except ε β} (hf : ∀ a, Ensures (f a) R) :
    Ensures (x >>= f) R :=
  bind (P := fun _ => True) (fun _ _ => trivial) fun a _ => hf a

theorem ite {c : Prop} [Decidable c] {y : Except ε α} (hx : c → Ensures x P)
    (hy : ¬ c → Ensures y P) : Ensures (if c then x else y) P := by
  by_cases h : c
  · rw [if_pos h]
    exact hx h
  · rw [if_neg h]
    exact hy h

/-- An invariant of the body of a loop over a list is an invariant of the loop. -/
theorem foldlM {step : σ → α → Except ε σ} {I : σ → Prop} {l : List α}
    (hstep : ∀ s, ∀ x ∈ l, I s → Ensures (step s x) I) {s : σ} (hs : I s) :
    Ensures (l.foldlM step s) I := by
  induction l generalizing s with
  | nil => exact pure hs
  | cons x l ih =>
    exact bind (hstep s x (List.mem_cons_self ..) hs) fun t ht =>
      ih (fun s y hy => hstep s y (List.mem_cons_of_mem _ hy)) ht

theorem mapM {f : α → Except ε β} {R : β → Prop} {l : List α}
    (hf : ∀ x ∈ l, Ensures (f x) R) : Ensures (l.mapM f) fun ys => ∀ y ∈ ys, R y := by
  induction l with
  | nil =>
    exact pure (by simp)
  | cons x l ih =>
    rw [List.mapM_cons]
    refine bind (hf x (List.mem_cons_self ..)) fun y hy => ?_
    refine bind (ih fun z hz => hf z (List.mem_cons_of_mem _ hz)) fun ys hys => pure ?_
    exact List.forall_mem_cons.mpr ⟨hy, hys⟩

end Ensures

/-- Every element went through the call, and its result is in the list. -/
theorem mem_of_mapM_ok {ε α β : Type} {f : α → Except ε β} {l : List α} {ys : List β}
    (h : l.mapM f = .ok ys) {x : α} (hx : x ∈ l) : ∃ y ∈ ys, f x = .ok y := by
  induction l generalizing ys with
  | nil => cases hx
  | cons z l ih =>
    rw [List.mapM_cons] at h
    obtain ⟨y, hy, h⟩ := bind_eq_ok h
    obtain ⟨rest, hrest, h⟩ := bind_eq_ok h
    cases h
    rcases List.mem_cons.mp hx with rfl | hx
    · exact ⟨y, List.mem_cons_self .., hy⟩
    · obtain ⟨w, hw, hfw⟩ := ih hrest hx
      exact ⟨w, List.mem_cons_of_mem _ hw, hfw⟩

/-- The body of a loop that returned has returned on every element. -/
theorem mem_of_foldlM_ok {ε α σ : Type} {step : σ → α → Except ε σ} {l : List α} {s t : σ}
    (h : l.foldlM step s = .ok t) {x : α} (hx : x ∈ l) : ∃ u v, step u x = .ok v := by
  induction l generalizing s with
  | nil => cases hx
  | cons y l ih =>
    obtain ⟨u, hu, h⟩ := bind_eq_ok h
    rcases List.mem_cons.mp hx with rfl | hx
    · exact ⟨s, u, hu⟩
    · exact ih h hx

end Lib
