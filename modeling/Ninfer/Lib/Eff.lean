/-
  Imperative code with exceptions, as state passing.

  A call either returns, throws with the state the throw leaves behind (nothing is rolled
  back unless the code does it), or is dead: `std::terminate` was reached, or the code ran
  into undefined behaviour. A dead call has no next state.

  `wp m P s` is the weakest precondition of the call `m` at the state `s` for the
  postcondition `P`. The simp set (`wp_bind`, `wp_ite`, ...) executes straight-line code
  symbolically; `wp_forEach_cons` and `wp_collect_cons` unfold a loop by one round.

  Not a model of time, of threads or of allocation failure of the language's own heap.
-/
import Mathlib

namespace Lib

/-- The exception a call throws, with the text the code gives it. -/
inductive Fault where
  | invalidArgument (what : String)
  | logicError (what : String)
  | overflowError (what : String)
  | outOfRange (what : String)
  | badAlloc
  /-- A failed call of the device runtime. -/
  | device
  /-- An exception class of the program's own, by its kind. -/
  | custom (kind : Nat) (what : String)
  deriving DecidableEq

inductive Outcome (σ α : Type) where
  | ok (a : α) (s : σ)
  | throw (e : Fault) (s : σ)
  | dead

/-- Code over the state `σ` that returns an `α`. -/
def Eff (σ α : Type) : Type := σ → Outcome σ α

namespace Eff

variable {σ τ α β : Type}

protected def pure (a : α) : Eff σ α := fun s => .ok a s

protected def bind (x : Eff σ α) (f : α → Eff σ β) : Eff σ β := fun s =>
  match x s with
  | .ok a t => f a t
  | .throw e t => .throw e t
  | .dead => .dead

instance : Monad (Eff σ) where
  pure := Eff.pure
  bind := Eff.bind

/-- `throw e` of the code. -/
def raise (e : Fault) : Eff σ α := fun s => .throw e s

/-- `std::terminate()`, or undefined behaviour. -/
def die : Eff σ α := fun _ => .dead

def get : Eff σ σ := fun s => .ok s s

def gets (f : σ → α) : Eff σ α := fun s => .ok (f s) s

def modify (f : σ → σ) : Eff σ Unit := fun s => .ok () (f s)

/-- `*o` of an optional: undefined behaviour when it is empty. -/
def deref : Option α → Eff σ α
  | some a => Eff.pure a
  | none => die

/-- What code outside the model answered: a value, or the exception it threw. -/
def answer : Except Fault α → Eff σ α
  | .ok a => Eff.pure a
  | .error e => raise e

/-- Run `m`; when it throws, run `cleanup` (destructors, a catch block that rethrows) on the
    state the throw left, then throw on. -/
def onThrow (m : Eff σ α) (cleanup : Eff σ Unit) : Eff σ α := fun s =>
  match m s with
  | .ok a t => .ok a t
  | .throw e t =>
    match cleanup t with
    | .ok _ u => .throw e u
    | _ => .dead
  | .dead => .dead

/-- `try { m } catch (...) {}`. -/
def swallow (m : Eff σ Unit) : Eff σ Unit := fun s =>
  match m s with
  | .throw _ t => .ok () t
  | o => o

/-- `if (c) m;`. -/
def when (c : Prop) [Decidable c] (m : Eff σ Unit) : Eff σ Unit := if c then m else Eff.pure ()

/-- `if (!c) throw e;`. -/
def require (c : Prop) [Decidable c] (e : Fault) : Eff σ Unit := when (¬ c) (raise e)

/-- `for (x : l) body(x)`. -/
def forEach {β : Type} : List β → (β → Eff σ Unit) → Eff σ Unit
  | [], _ => Eff.pure ()
  | x :: l, body => Eff.bind (body x) fun _ => forEach l body

/-- `for (x : l) out.push_back(body(x))`. -/
def collect {β : Type} : List β → (β → Eff σ α) → Eff σ (List α)
  | [], _ => Eff.pure []
  | x :: l, body =>
    Eff.bind (body x) fun a => Eff.bind (collect l body) fun as => Eff.pure (a :: as)

/-- Code over a part `τ` of the state `σ`. -/
def zoom (view : σ → τ) (put : σ → τ → σ) (m : Eff τ α) : Eff σ α := fun s =>
  match m (view s) with
  | .ok a t => .ok a (put s t)
  | .throw e t => .throw e (put s t)
  | .dead => .dead

end Eff

/-- A postcondition: what holds on return, what holds after a throw, and whether the call
    may be dead. -/
structure Post (σ α : Type) where
  ok : α → σ → Prop
  throw : Fault → σ → Prop
  dead : Prop

variable {σ α : Type}

def Outcome.Sat (P : Post σ α) : Outcome σ α → Prop
  | .ok a s => P.ok a s
  | .throw e s => P.throw e s
  | .dead => P.dead

/-- The state `t` is where the call landed, by a return or by a throw. -/
def Outcome.Lands : Outcome σ α → σ → Prop
  | .ok _ s, t => s = t
  | .throw _ s, t => s = t
  | .dead, _ => False

/-- Whether the call returned. -/
def Outcome.returned : Outcome σ α → Bool
  | .ok _ _ => true
  | _ => false

theorem Outcome.returned_iff {o : Outcome σ α} :
    o.returned = true ↔ ∃ a s, o = .ok a s := by
  cases o <;> simp [Outcome.returned]

def wp (m : Eff σ α) (P : Post σ α) (s : σ) : Prop := (m s).Sat P

section Rules

variable {σ τ α β : Type} {P : Post σ α} {Q : Post σ β} {s : σ}

@[simp] theorem wp_pure (a : α) : wp (pure a : Eff σ α) P s ↔ P.ok a s := .rfl

@[simp] theorem wp_bind (x : Eff σ α) (f : α → Eff σ β) :
    wp (x >>= f) Q s ↔ wp x ⟨fun a t => wp (f a) Q t, Q.throw, Q.dead⟩ s := by
  simp only [wp, bind, Eff.bind]
  cases x s <;> rfl

@[simp] theorem wp_raise (e : Fault) : wp (Eff.raise e : Eff σ α) P s ↔ P.throw e s := .rfl

@[simp] theorem wp_die : wp (Eff.die : Eff σ α) P s ↔ P.dead := .rfl

@[simp] theorem wp_get {P : Post σ σ} : wp Eff.get P s ↔ P.ok s s := .rfl

@[simp] theorem wp_gets (f : σ → α) : wp (Eff.gets f) P s ↔ P.ok (f s) s := .rfl

@[simp] theorem wp_modify {P : Post σ Unit} (f : σ → σ) :
    wp (Eff.modify f) P s ↔ P.ok () (f s) := .rfl

@[simp] theorem wp_deref (o : Option α) :
    wp (Eff.deref o : Eff σ α) P s ↔ (∀ a, o = some a → P.ok a s) ∧ (o = none → P.dead) := by
  cases o with
  | none => simp [Eff.deref]
  | some a => simp [Eff.deref, wp, Eff.pure, Outcome.Sat]

@[simp] theorem wp_answer (x : Except Fault α) : wp (Eff.answer x : Eff σ α) P s ↔
      (∀ a, x = .ok a → P.ok a s) ∧ (∀ e, x = .error e → P.throw e s) := by
  cases x with
  | ok a => simp [Eff.answer, wp, Eff.pure, Outcome.Sat]
  | error e => simp [Eff.answer]

@[simp] theorem wp_ite (c : Prop) [Decidable c] (x y : Eff σ α) :
    wp (if c then x else y) P s ↔ (c → wp x P s) ∧ (¬ c → wp y P s) := by
  split <;> simp [*]

@[simp] theorem wp_when (c : Prop) [Decidable c] {P : Post σ Unit} (m : Eff σ Unit) :
    wp (Eff.when c m) P s ↔ (c → wp m P s) ∧ (¬ c → P.ok () s) :=
  wp_ite c m (Eff.pure ())

@[simp] theorem wp_require (c : Prop) [Decidable c] {P : Post σ Unit} (e : Fault) :
    wp (Eff.require c e) P s ↔ (¬ c → P.throw e s) ∧ (c → P.ok () s) := by
  rw [Eff.require, wp_when, wp_raise, not_not]

@[simp] theorem wp_onThrow (m : Eff σ α) (cleanup : Eff σ Unit) : wp (Eff.onThrow m cleanup) P s ↔
      wp m ⟨P.ok, fun e t => wp cleanup ⟨fun _ u => P.throw e u, fun _ _ => P.dead, P.dead⟩ t,
        P.dead⟩ s := by
  simp only [wp, Eff.onThrow]
  cases m s with
  | ok a t => rfl
  | throw e t =>
    simp only [Outcome.Sat]
    cases cleanup t <;> rfl
  | dead => rfl

@[simp] theorem wp_swallow {P : Post σ Unit} (m : Eff σ Unit) :
    wp (Eff.swallow m) P s ↔ wp m ⟨P.ok, fun _ t => P.ok () t, P.dead⟩ s := by
  simp only [wp, Eff.swallow]
  cases m s <;> rfl

@[simp] theorem wp_zoom (view : σ → τ) (put : σ → τ → σ) (m : Eff τ α) :
    wp (Eff.zoom view put m) P s ↔
      wp m ⟨fun a t => P.ok a (put s t), fun e t => P.throw e (put s t), P.dead⟩ (view s) := by
  simp only [wp, Eff.zoom]
  cases m (view s) <;> rfl

variable {m : Eff σ α} {f : α → Eff σ β}

theorem wp_mono {P P' : Post σ α} (h : wp m P s) (hok : ∀ a t, P.ok a t → P'.ok a t)
    (hthrow : ∀ e t, P.throw e t → P'.throw e t) (hdead : P.dead → P'.dead) : wp m P' s := by
  unfold wp at h ⊢
  cases hm : m s with
  | ok a t => rw [hm] at h; exact hok a t h
  | throw e t => rw [hm] at h; exact hthrow e t h
  | dead => rw [hm] at h; exact hdead h

/-- Only what holds where the call returns is weakened. -/
theorem wp_imp {R R' : α → σ → Prop} {T : Fault → σ → Prop} {D : Prop} (h : wp m ⟨R, T, D⟩ s)
    (hok : ∀ a t, R a t → R' a t) : wp m ⟨R', T, D⟩ s :=
  wp_mono h hok (fun _ _ h => h) id

/-- The rule of sequence after a call that always returns. -/
theorem wp_seq {R : α → σ → Prop} (h : wp m ⟨R, fun _ _ => False, False⟩ s)
    (hf : ∀ a t, R a t → wp (f a) Q t) : wp (m >>= f) Q s := by
  rw [wp_bind]
  exact wp_mono h hf (fun _ _ hF => hF.elim) False.elim

/-! The rules of sequence after the steps that always return. -/

theorem wp_get_bind {f : σ → Eff σ β} : wp (Eff.get >>= f) Q s ↔ wp (f s) Q s := .rfl

theorem wp_gets_bind {g : σ → α} : wp (Eff.gets g >>= f) Q s ↔ wp (f (g s)) Q s := .rfl

theorem wp_modify_bind {g : σ → σ} {f : Unit → Eff σ β} :
    wp (Eff.modify g >>= f) Q s ↔ wp (f ()) Q (g s) := .rfl

/-- The rule of sequence after an answer that is known. -/
theorem wp_answer_ok_bind {x : Except Fault α} {a : α} (hx : x = .ok a) (hf : wp (f a) Q s) :
    wp (Eff.answer x >>= f) Q s := by
  subst hx
  exact hf

@[simp] theorem wp_forEach_cons {γ : Type} {P : Post σ Unit} (x : γ) (l : List γ)
    (body : γ → Eff σ Unit) :
    wp (Eff.forEach (x :: l) body) P s ↔
      wp (body x) ⟨fun _ t => wp (Eff.forEach l body) P t, P.throw, P.dead⟩ s :=
  wp_bind (body x) fun _ => Eff.forEach l body

/-- A loop of calls that all leave the state as it is. -/
theorem wp_forEach_same {γ : Type} {l : List γ} {body : γ → Eff σ Unit}
    (h : ∀ x ∈ l, wp (body x) ⟨fun _ t => t = s, fun _ _ => False, False⟩ s) :
    wp (Eff.forEach l body) ⟨fun _ t => t = s, fun _ _ => False, False⟩ s := by
  induction l with
  | nil => exact rfl
  | cons x l ih =>
    rw [wp_forEach_cons]
    refine wp_imp (h x (by simp)) ?_
    rintro _ t rfl
    exact ih fun y hy => h y (by simp [hy])

@[simp] theorem wp_collect_cons {γ : Type} {P : Post σ (List α)} (x : γ) (l : List γ)
    (body : γ → Eff σ α) :
    wp (Eff.collect (x :: l) body) P s ↔
      wp (body x) ⟨fun a t => wp (Eff.collect l body) ⟨fun as u => P.ok (a :: as) u, P.throw,
        P.dead⟩ t, P.throw, P.dead⟩ s := by
  refine (wp_bind (body x) _).trans ?_
  simp only [wp, Eff.bind]
  cases body x s with
  | ok a t =>
    simp only [Outcome.Sat]
    cases Eff.collect l body t <;> rfl
  | throw e t => rfl
  | dead => rfl

/-- What a call leaves behind, whichever way it ends. -/
theorem wp_lands {I : σ → Prop} {D : Prop} {t : σ} (h : wp m ⟨fun _ => I, fun _ => I, D⟩ s)
    (ht : (m s).Lands t) : I t := by
  unfold wp at h
  cases hm : m s with
  | ok a u => rw [hm] at h ht; exact ht ▸ h
  | throw e u => rw [hm] at h ht; exact ht ▸ h
  | dead => rw [hm] at ht; exact ht.elim

/-- A call that neither throws nor dies returns. -/
theorem wp_returns {Q : α → σ → Prop} (h : wp m ⟨Q, fun _ _ => False, False⟩ s) :
    ∃ a t, m s = .ok a t ∧ Q a t := by
  unfold wp at h
  cases hm : m s with
  | ok a t => rw [hm] at h; exact ⟨a, t, rfl, h⟩
  | throw e t => rw [hm] at h; exact h.elim
  | dead => rw [hm] at h; exact h.elim

theorem wp_threw {t : σ} {e : Fault} (h : wp m P s) (hm : m s = .throw e t) : P.throw e t := by
  unfold wp at h
  rw [hm] at h
  exact h

theorem wp_not_dead (h : wp m P s) (hdead : ¬ P.dead) : m s ≠ .dead := by
  intro hm
  unfold wp at h
  rw [hm] at h
  exact hdead h

/-- A call whose throws all avoid the exception `e` does not throw it. -/
theorem wp_never {I : Fault → σ → Prop} {Q : α → σ → Prop} {D : Prop} {e : Fault} {t : σ}
    (h : wp m ⟨Q, I, D⟩ s) (he : ∀ u, ¬ I e u) : m s ≠ .throw e t := by
  intro hm
  unfold wp at h
  rw [hm] at h
  exact he t h

end Rules

/-- At `s` the call only reads: it returns something with `Q` or throws, and the state stays. -/
def Checks (m : Eff σ α) (s : σ) (Q : α → Prop) : Prop :=
  wp m ⟨fun a t => t = s ∧ Q a, fun _ t => t = s, False⟩ s

section Checks

variable {σ α β : Type} {m : Eff σ α} {f : α → Eff σ β} {s : σ} {Q Q' : α → Prop} {R : β → Prop}

theorem Checks.pure {a : α} (h : Q a) : Checks (Pure.pure a : Eff σ α) s Q := ⟨rfl, h⟩

theorem Checks.raise (e : Fault) : Checks (Eff.raise e : Eff σ α) s Q := rfl

theorem Checks.get : Checks (Eff.get : Eff σ σ) s fun a => a = s := ⟨rfl, rfl⟩

theorem Checks.require {c : Prop} [Decidable c] {e : Fault} :
    Checks (Eff.require c e) s fun _ => c :=
  (wp_require c e).mpr ⟨fun _ => rfl, fun h => ⟨rfl, h⟩⟩

theorem Checks.answer (x : Except Fault α) : Checks (Eff.answer x : Eff σ α) s fun a => x = .ok a :=
  (wp_answer x).mpr ⟨fun _ h => ⟨rfl, h⟩, fun _ _ => rfl⟩

theorem Checks.deref {o : Option α} {a : α} (h : o = some a) :
    Checks (Eff.deref o : Eff σ α) s fun b => b = a := by
  subst h
  exact ⟨rfl, rfl⟩

/-- A check that returned found what it checks, in the state it started in. -/
theorem Checks.of_ok {t : σ} {a : α} (h : Checks m s Q) (hm : m s = .ok a t) : t = s ∧ Q a := by
  unfold Checks wp at h
  rw [hm] at h
  exact h

theorem Checks.mono (h : Checks m s Q) (hQ : ∀ a, Q a → Q' a) : Checks m s Q' :=
  wp_imp h (fun a _ ht => ⟨ht.1, hQ a ht.2⟩)

/-- The rule of sequence after a check: what follows starts in the same state. -/
theorem Checks.wp_bind {P : Post σ β} (h : Checks m s Q) (hthrow : ∀ e, P.throw e s)
    (hok : ∀ a, Q a → wp (f a) P s) : wp (m >>= f) P s := by
  rw [Lib.wp_bind]
  refine wp_mono h ?_ ?_ False.elim
  · rintro a t ⟨rfl, ha⟩
    exact hok a ha
  · rintro e t rfl
    exact hthrow e

theorem Checks.bind (h : Checks m s Q) (hf : ∀ a, Q a → Checks (f a) s R) : Checks (m >>= f) s R :=
  h.wp_bind (fun _ => rfl) hf

theorem Checks.get_bind {f : σ → Eff σ β} (h : Checks (f s) s R) : Checks (Eff.get >>= f) s R := h

theorem Checks.forEach {γ : Type} {l : List γ} {body : γ → Eff σ Unit} {K : γ → Prop}
    (h : ∀ c ∈ l, Checks (body c) s fun _ => K c) :
    Checks (Eff.forEach l body) s fun _ => ∀ c ∈ l, K c := by
  induction l with
  | nil => exact .pure (a := ()) (Q := fun _ => ∀ c ∈ [], K c) (by simp)
  | cons c l ih =>
    refine (h c (by simp)).bind (f := fun _ => Eff.forEach l body) fun _ hc => ?_
    refine (ih fun d hd => h d (by simp [hd])).mono fun _ hl => ?_
    simpa using ⟨hc, hl⟩

theorem Checks.collect {γ : Type} {l : List γ} {body : γ → Eff σ α}
    (h : ∀ c ∈ l, Checks (body c) s Q) :
    Checks (Eff.collect l body) s fun as => ∀ a ∈ as, Q a := by
  induction l with
  | nil => exact .pure (a := []) (Q := fun as => ∀ a ∈ as, Q a) (by simp)
  | cons c l ih =>
    refine (h c (by simp)).bind
      (f := fun a => Eff.bind (Eff.collect l body) fun as => Eff.pure (a :: as)) fun a ha => ?_
    refine (ih fun d hd => h d (by simp [hd])).bind (f := fun as => Eff.pure (a :: as))
      fun as has => ?_
    exact .pure (a := a :: as) (Q := fun as => ∀ a ∈ as, Q a) (by simpa using ⟨ha, has⟩)

end Checks

/-- At `s` the call returns something with `Q`, and the state stays. -/
def Returns (m : Eff σ α) (s : σ) (Q : α → Prop) : Prop :=
  wp m ⟨fun a t => t = s ∧ Q a, fun _ _ => False, False⟩ s

section Returns

variable {σ α β : Type} {m : Eff σ α} {f : α → Eff σ β} {s : σ} {Q Q' : α → Prop} {R : β → Prop}

theorem Returns.pure {a : α} (h : Q a) : Returns (Pure.pure a : Eff σ α) s Q := ⟨rfl, h⟩

theorem Returns.get_bind {f : σ → Eff σ β} (h : Returns (f s) s R) : Returns (Eff.get >>= f) s R :=
  h

theorem Returns.require {c : Prop} [Decidable c] (h : c) (e : Fault) :
    Returns (Eff.require c e) s fun _ => True :=
  (wp_require c e).mpr ⟨fun hn => absurd h hn, fun _ => ⟨rfl, trivial⟩⟩

theorem Returns.deref {o : Option α} {a : α} (h : o = some a) :
    Returns (Eff.deref o : Eff σ α) s fun b => b = a := by
  subst h
  exact ⟨rfl, rfl⟩

theorem Returns.mono (h : Returns m s Q) (hQ : ∀ a, Q a → Q' a) : Returns m s Q' :=
  wp_imp h (fun a _ ht => ⟨ht.1, hQ a ht.2⟩)

theorem Returns.bind (h : Returns m s Q) (hf : ∀ a, Q a → Returns (f a) s R) :
    Returns (m >>= f) s R := by
  refine wp_seq h ?_
  rintro a t ⟨rfl, ha⟩
  exact hf a ha

theorem Returns.collect {γ : Type} {l : List γ} {body : γ → Eff σ α}
    (h : ∀ c ∈ l, Returns (body c) s Q) :
    Returns (Eff.collect l body) s fun as => ∀ a ∈ as, Q a := by
  induction l with
  | nil => exact .pure (a := []) (Q := fun as => ∀ a ∈ as, Q a) (by simp)
  | cons c l ih =>
    refine (h c (by simp)).bind
      (f := fun a => Eff.bind (Eff.collect l body) fun as => Eff.pure (a :: as)) fun a ha => ?_
    refine (ih fun d hd => h d (by simp [hd])).bind (f := fun as => Eff.pure (a :: as))
      fun as has => ?_
    exact .pure (a := a :: as) (Q := fun as => ∀ a ∈ as, Q a) (by simpa using ⟨ha, has⟩)

theorem Returns.exists (h : Returns m s Q) : ∃ a, m s = .ok a s ∧ Q a := by
  obtain ⟨a, t, hm, rfl, ha⟩ := wp_returns h
  exact ⟨a, hm, ha⟩

end Returns

/-- What holds of the entries of a list, and of the one the code appends. -/
theorem forall_mem_push {α : Type} {p : α → Prop} {l : List α} {x : α} (hl : ∀ a ∈ l, p a)
    (hx : p x) : ∀ a ∈ l ++ [x], p a :=
  List.forall_mem_append.mpr ⟨hl, List.forall_mem_singleton.mpr hx⟩

end Lib
