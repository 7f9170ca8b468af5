/-
  Quiescence fences and the admission deadlines of waiting requests.

  `run_at_quiescence` stamps a fence and queues it. The worker runs the work of the first queued
  fence at a boundary where the engine is quiescent, and then credits every request in the
  pending queue with the part of the hold it waited through. Deadlines are compared with the
  clock at every boundary (`expire_pending_requests`) and at each admission attempt.

  Time is a number that only `tick` advances. Two things about a request are not in the code and
  are kept beside it: the allowance it came with, and `fenced`, the time it has waited since its
  submission while a fence was outstanding.

  A boundary during the drain expires a request that the fence held, and two fences that overlap
  credit the overlap twice. Where fences do not overlap, no deadline passes during a drain and no
  submit is cut by the end of a fence, a timeout comes only after the allowance.

  Not modelled: what the work does, the lanes that drain, how a request leaves the queue otherwise.
-/
import Ninfer.Lib.Reach
import Ninfer.Engine.Request

namespace Ninfer.Quiescence

open Lib

/-! ## State -/

/-- A request between `submit` and its admission. -/
structure Waiting where
  id : Nat
  submitted : Nat
  deadline : Nat
  /-- Not in the code: `deadline - submitted` as submitted. -/
  allowance : Nat
  /-- Not in the code: the time since `submitted` with a fence outstanding. -/
  fenced : Nat := 0

structure QuiescenceOutcome where
  drain : Nat
  work : Nat
  requestsHeld : Nat

/-- The fence whose work is running. -/
structure Running where
  requestedAt : Nat
  heldAt : Nat

/-- A request completed with `QueueTimeout`, and when. -/
structure Timeout where
  request : Waiting
  time : Nat

structure State where
  pendingTimeout : Nat
  now : Nat := 0
  nextRequestId : Nat := 1
  /-- Stamped by `submit`, not pushed yet. -/
  building : List Waiting := []
  pending : List Waiting := []
  quiescenceQueue : List Nat := []
  quiescencePending : Bool := false
  running : Option Running := none
  /-- What the futures of the fences received; none when the work threw. -/
  outcomes : List (Option QuiescenceOutcome) := []
  timeouts : List Timeout := []

/-- When the fence that is outstanding was requested; with several, the first of them. -/
def State.fence (s : State) : Option Nat :=
  match s.running with
  | some r => some r.requestedAt
  | none => s.quiescenceQueue.head?

/-! ## Steps -/

/-- Time passes. -/
def tick (d : Nat) : Eff State Unit := Eff.modify fun s =>
  let charge (r : Waiting) := { r with fenced := r.fenced + if s.fence.isSome then d else 0 }
  { s with now := s.now + d, building := s.building.map charge, pending := s.pending.map charge }

/-- `submit` up to the construction of the request. -/
def submit (pendingDeadline : Option Nat) : Eff State Unit := do
  let s ← Eff.get
  let deadline := pendingDeadline.getD (s.now + s.pendingTimeout)
  if deadline ≤ s.now then
    Eff.raise (requestError .queueTimeout "inference request expired before submission")
  else
    Eff.modify fun s => { s with
      nextRequestId := s.nextRequestId + 1
      building := s.building ++ [{
        id := s.nextRequestId
        submitted := s.now
        deadline
        allowance := deadline - s.now }] }

/-- The second critical section of `submit`: push the request. -/
def enqueue (k : Nat) : Eff State Unit := Eff.modify fun s =>
  { s with building := s.building.eraseIdx k, pending := s.pending ++ s.building[k]?.toList }

/-- `submit` throws after the stamp: the request cannot be built or the engine is unavailable. -/
def refuse (k : Nat) : Eff State Unit := Eff.modify fun s =>
  { s with building := s.building.eraseIdx k }

def runAtQuiescence : Eff State Unit := Eff.modify fun s =>
  { s with quiescenceQueue := s.quiescenceQueue ++ [s.now], quiescencePending := true }

/-- `run_quiescence_work_if_ready` up to the call of the work; `quiescent` is
    `engine_is_quiescent()`. -/
def beginWork (quiescent : Bool) : Eff State Unit := do
  let s ← Eff.get
  if ¬ s.quiescencePending then pure ()
  else if ¬ quiescent then pure ()
  else match s.quiescenceQueue with
    | [] => Eff.modify fun s => { s with quiescencePending := false }
    | requestedAt :: rest => Eff.modify fun s => { s with
        quiescenceQueue := rest
        running := some { requestedAt, heldAt := s.now } }

/-- The credit of a fence: the part of the hold the request waited through. -/
def Waiting.credited (r : Waiting) (requestedAt releasedAt : Nat) : Waiting :=
  { r with
    deadline := r.deadline + if max r.submitted requestedAt < releasedAt
      then releasedAt - max r.submitted requestedAt else 0 }

/-- `run_quiescence_work_if_ready` from the return of the work on; `failure` is that it threw. -/
def finishWork (failure : Bool) : Eff State Unit := do
  let s ← Eff.get
  match s.running with
  | none => pure ()
  | some request => Eff.modify fun s => { s with
      running := none
      pending := s.pending.map (·.credited request.requestedAt s.now)
      outcomes := s.outcomes ++ [if failure then none else some {
        drain := request.heldAt - request.requestedAt
        work := s.now - request.heldAt
        requestsHeld :=
          s.pending.countP fun r => max r.submitted request.requestedAt < s.now }]
      quiescencePending := if s.quiescenceQueue = [] then false else s.quiescencePending }

/-- `expire_pending_requests`; `cancelled` is which requests have their flag set. -/
def expirePendingRequests (cancelled : Nat → Bool) : Eff State Unit := Eff.modify fun s =>
  let waiting := s.pending.filter fun r => ¬ cancelled r.id
  { s with
    pending := waiting.filter fun r => s.now < r.deadline
    timeouts := s.timeouts ++
      (waiting.filter fun r => r.deadline ≤ s.now).map fun r => { request := r, time := s.now } }

/-- The deadline check of an admission attempt on one request. -/
def expireOne (id : Nat) : Eff State Unit := Eff.modify fun s =>
  let late (r : Waiting) : Bool := r.id = id ∧ r.deadline ≤ s.now
  { s with
    pending := s.pending.filter fun r => ¬ late r
    timeouts := s.timeouts ++
      (s.pending.filter fun r => late r).map fun r => { request := r, time := s.now } }

/-- The request is admitted, or leaves as cancelled. -/
def leave (id : Nat) : Eff State Unit := Eff.modify fun s =>
  { s with pending := s.pending.filter fun r => r.id ≠ id }

/-! ## Runs -/

inductive Command where
  | tick (d : Nat)
  | submit (pendingDeadline : Option Nat)
  | enqueue (k : Nat)
  | refuse (k : Nat)
  | runAtQuiescence
  | beginWork (quiescent : Bool)
  | finishWork (failure : Bool)
  | expirePendingRequests (cancelled : Nat → Bool)
  | expireOne (id : Nat)
  | leave (id : Nat)

def run : Command → Eff State Unit
  | .tick d => tick d
  | .submit pendingDeadline => submit pendingDeadline
  | .enqueue k => enqueue k
  | .refuse k => refuse k
  | .runAtQuiescence => runAtQuiescence
  | .beginWork quiescent => beginWork quiescent
  | .finishWork failure => finishWork failure
  | .expirePendingRequests cancelled => expirePendingRequests cancelled
  | .expireOne id => expireOne id
  | .leave id => leave id

/-- The work runs on the worker: while it does, the worker makes no other step. -/
def May : Command → State → Prop
  | .beginWork _, s | .expirePendingRequests _, s | .expireOne _, s | .leave _, s =>
    s.running = none
  | _, _ => True

instance : ∀ c s, Decidable (May c s)
  | .beginWork _, s | .expirePendingRequests _, s | .expireOne _, s | .leave _, s =>
    inferInstanceAs (Decidable (s.running = none))
  | .tick _, _ | .submit _, _ | .enqueue _, _ | .refuse _, _ | .runAtQuiescence, _
  | .finishWork _, _ => isTrue trivial

def Fresh (s : State) : Prop := ∃ pendingTimeout, s = { pendingTimeout }

/-- A fence is requested only when none is outstanding; a deadline check made while one is
    outstanding finds no deadline passed; no fence ends while a submit is between its stamp and
    the queue. -/
def Orderly : Command → State → Prop
  | .runAtQuiescence, s => s.fence = none
  | .finishWork _, s => s.building = []
  | .expirePendingRequests _, s => s.fence ≠ none → ∀ r ∈ s.pending, s.now < r.deadline
  | .expireOne _, s => s.fence ≠ none → ∀ r ∈ s.pending, s.now < r.deadline
  | _, _ => True

instance : ∀ c s, Decidable (Orderly c s)
  | .runAtQuiescence, s => inferInstanceAs (Decidable (s.fence = none))
  | .finishWork _, s => inferInstanceAs (Decidable (s.building = []))
  | .expirePendingRequests _, s | .expireOne _, s =>
    inferInstanceAs (Decidable (s.fence ≠ none → ∀ r ∈ s.pending, s.now < r.deadline))
  | .tick _, _ | .submit _, _ | .enqueue _, _ | .refuse _, _ | .beginWork _, _
  | .leave _, _ => isTrue trivial

/-- Every run. -/
abbrev Reached : State → Prop := Reach Fresh run May

/-- The runs whose every step is orderly. -/
abbrev ReachedOrderly : State → Prop := Reach Fresh run fun c s => May c s ∧ Orderly c s

/-- The time a request waited before its timeout, less what a fence held it, reached its
    allowance. -/
def Timeout.Due (t : Timeout) : Prop :=
  t.request.submitted + t.request.allowance + t.request.fenced ≤ t.time

/-- The deadline was moved by exactly the fenced waiting time. -/
def Waiting.Exact (r : Waiting) : Prop := r.deadline = r.submitted + r.allowance + r.fenced

/-! ## Where the fence costs a deadline -/

/-- A request with an allowance of 10 waits while a fence drains from 1 to 12: the boundary at
    12 expires it, 11 of its 12 units fenced. And two fences at 1 and 2, released at 3 and 4,
    move a deadline by 4 where 3 were fenced. -/
theorem fence_can_expire : (∃ s, Reached s ∧ ∃ t ∈ s.timeouts, ¬ t.Due) ∧
    (∃ s, Reached s ∧ s.fence = none ∧ ∃ r ∈ s.pending,
      r.submitted + r.allowance + r.fenced < r.deadline) := by
  refine ⟨?_, ?_⟩
  · have hrun : (trace run May [.submit none, .enqueue 0, .tick 1, .runAtQuiescence,
        .beginWork false, .tick 11, .expirePendingRequests fun _ => false]
        { pendingTimeout := 10 }).map (·.timeouts) =
        some [⟨⟨1, 0, 10, 10, 11⟩, 12⟩] := by rfl
    obtain ⟨s, hs, ht⟩ := Option.map_eq_some_iff.mp hrun
    exact ⟨s, .of_trace (.start ⟨10, rfl⟩) hs, _, by rw [ht]; exact List.mem_singleton_self _,
      by simp [Timeout.Due]⟩
  · have hrun : (trace run May [.submit none, .enqueue 0, .tick 1, .runAtQuiescence, .tick 1,
        .runAtQuiescence, .beginWork true, .tick 1, .finishWork false, .beginWork true, .tick 1,
        .finishWork false] { pendingTimeout := 10 }).map (fun s => (s.fence, s.pending)) =
        some (none, [⟨1, 0, 14, 10, 3⟩]) := by rfl
    obtain ⟨s, hs, ht⟩ := Option.map_eq_some_iff.mp hrun
    obtain ⟨hf, hp⟩ := Prod.mk.inj ht
    exact ⟨s, .of_trace (.start ⟨10, rfl⟩) hs, hf, _,
      by rw [hp]; exact List.mem_singleton_self _, by simp⟩

/-! ## Orderly runs -/

/-- The fenced waiting time that no credit covers yet. -/
def State.uncredited (s : State) (r : Waiting) : Nat :=
  match s.fence with
  | none => 0
  | some requestedAt => s.now - max r.submitted requestedAt

/-- What a request that waits in `s` is owed. -/
def Accounted (s : State) (r : Waiting) : Prop :=
  r.submitted ≤ s.now ∧ r.deadline + s.uncredited r = r.submitted + r.allowance + r.fenced

structure Invariant (s : State) : Prop where
  single : s.running ≠ none → s.quiescenceQueue = []
  queued : s.quiescenceQueue.length ≤ 1
  stamped : ∀ t, s.fence = some t → t ≤ s.now
  building : ∀ r ∈ s.building, Accounted s r
  pending : ∀ r ∈ s.pending, Accounted s r
  timeouts : ∀ t ∈ s.timeouts, t.Due

theorem invariant_fresh {s : State} (h : Fresh s) : Invariant s := by
  obtain ⟨pendingTimeout, rfl⟩ := h
  constructor <;> simp [State.fence]

section Steps

variable {s t : State} {r : Waiting}

theorem accounted_of_none (h : Accounted s r) (hf : s.fence = none) : r.Exact := by
  have := h.2
  simp only [State.uncredited, hf] at this
  exact this

/-- What is owed depends on the clock and the fence only. -/
theorem Accounted.congr (h : Accounted s r) (hnow : t.now = s.now) (hf : t.fence = s.fence) :
    Accounted t r := by
  unfold Accounted State.uncredited at h ⊢
  rw [hnow, hf]
  exact h

theorem fence_eq_none (h : s.fence = none) : s.running = none ∧ s.quiescenceQueue = [] := by
  unfold State.fence at h
  split at h
  · nomatch h
  · next hr => exact ⟨hr, List.head?_eq_none_iff.mp h⟩

section

variable (h : Invariant s)

include h

theorem wp_tick (d : Nat) : wp (tick d) (keeps Invariant) s := by
  have hcharge : ∀ r, Accounted s r → Accounted { s with
        now := s.now + d
        building := s.building.map fun r =>
          { r with fenced := r.fenced + if s.fence.isSome then d else 0 }
        pending := s.pending.map fun r =>
          { r with fenced := r.fenced + if s.fence.isSome then d else 0 } }
      { r with fenced := r.fenced + if s.fence.isSome then d else 0 } := by
    rintro r ⟨hle, heq⟩
    refine ⟨by show r.submitted ≤ s.now + d; omega, ?_⟩
    unfold State.uncredited at heq ⊢
    change r.deadline + (match s.fence with
      | none => 0
      | some requestedAt => s.now + d - max r.submitted requestedAt) = _
    cases hf : s.fence with
    | none =>
      rw [hf] at heq
      simpa using heq
    | some requestedAt =>
      rw [hf] at heq
      have := h.stamped requestedAt hf
      simp only [Option.isSome_some, if_true] at heq ⊢
      omega
  refine ⟨h.single, h.queued, fun u hu => ?_, fun r hr => ?_, fun r hr => ?_, h.timeouts⟩
  · have := h.stamped u hu
    show u ≤ s.now + d
    omega
  · obtain ⟨q, hq, rfl⟩ := List.mem_map.mp hr
    exact hcharge q (h.building q hq)
  · obtain ⟨q, hq, rfl⟩ := List.mem_map.mp hr
    exact hcharge q (h.pending q hq)

theorem wp_submit (pendingDeadline : Option Nat) :
    wp (submit pendingDeadline) (keeps Invariant) s := by
  simp only [submit, wp_bind, wp_get, wp_ite, wp_raise, wp_modify]
  refine ⟨fun _ => h, fun hlate => { h with building := fun r hr => ?_ }⟩
  rcases List.mem_append.mp hr with hr | hr
  · exact h.building r hr
  · obtain rfl := List.mem_singleton.mp hr
    refine ⟨Nat.le_refl _, ?_⟩
    have hzero : s.uncredited ⟨s.nextRequestId, s.now, pendingDeadline.getD
        (s.now + s.pendingTimeout), pendingDeadline.getD (s.now + s.pendingTimeout) - s.now, 0⟩
        = 0 := by
      unfold State.uncredited
      split
      · rfl
      · exact Nat.sub_eq_zero_of_le (Nat.le_max_left _ _)
    change _ + s.uncredited _ = _
    dsimp only
    omega

theorem wp_enqueue (k : Nat) : wp (enqueue k) (keeps Invariant) s := by
  refine { h with building := fun r hr => ?_, pending := fun r hr => ?_ }
  · exact h.building r (List.mem_of_mem_eraseIdx hr)
  · rcases List.mem_append.mp hr with hr | hr
    · exact h.pending r hr
    · exact h.building r (List.mem_of_getElem? (Option.mem_toList.mp hr))

theorem wp_refuse (k : Nat) : wp (refuse k) (keeps Invariant) s :=
  { h with building := fun r hr => h.building r (List.mem_of_mem_eraseIdx hr) }

/-- The first fence: from now on its drain is owed, so far nothing. -/
theorem wp_runAtQuiescence (hf : s.fence = none) :
    wp runAtQuiescence (keeps Invariant) s := by
  obtain ⟨hrun, hq⟩ := fence_eq_none hf
  have hfence : ({ s with
      quiescenceQueue := s.quiescenceQueue ++ [s.now]
      quiescencePending := true } : State).fence = some s.now := by
    simp [State.fence, hrun, hq]
  have howed : ∀ r, Accounted s r → Accounted { s with
      quiescenceQueue := s.quiescenceQueue ++ [s.now]
      quiescencePending := true } r := by
    intro r hr
    have hex := accounted_of_none hr hf
    refine ⟨hr.1, ?_⟩
    unfold State.uncredited
    rw [hfence]
    have : s.now - max r.submitted s.now = 0 := Nat.sub_eq_zero_of_le (Nat.le_max_right _ _)
    simp only [this]
    exact hex
  refine ⟨fun hr => absurd hrun hr, by simp [hq], fun u hu => ?_,
    fun r hr => howed r (h.building r hr), fun r hr => howed r (h.pending r hr), h.timeouts⟩
  rw [hfence] at hu
  exact Nat.le_of_eq (Option.some.inj hu).symm

theorem wp_beginWork (hrun : s.running = none) (quiescent : Bool) :
    wp (beginWork quiescent) (keeps Invariant) s := by
  simp only [beginWork, wp_bind, wp_get, wp_ite, wp_pure]
  refine ⟨fun _ => h, fun _ => ⟨fun _ => h, fun _ => ?_⟩⟩
  cases hq : s.quiescenceQueue with
  | nil => exact { h with }
  | cons requestedAt rest =>
    have hrest : rest = [] := by
      have := h.queued
      rw [hq] at this
      exact List.eq_nil_of_length_eq_zero (by simpa using this)
    have hf : s.fence = some requestedAt := by simp [State.fence, hrun, hq]
    refine ⟨fun _ => hrest, by simp [hrest], fun u hu => ?_, fun r hr => ?_, fun r hr => ?_,
      h.timeouts⟩
    · exact h.stamped u (hf.trans hu)
    · exact (h.building r hr).congr rfl hf.symm
    · exact (h.pending r hr).congr rfl hf.symm

/-- The end of the only fence pays what is owed. -/
theorem wp_finishWork (hb : s.building = []) (failure : Bool) :
    wp (finishWork failure) (keeps Invariant) s := by
  simp only [finishWork, wp_bind, wp_get]
  cases hrun : s.running with
  | none => exact h
  | some request =>
    have hq := h.single (by simp [hrun])
    have hf : s.fence = some request.requestedAt := by simp [State.fence, hrun]
    refine ⟨fun hr => absurd rfl hr, h.queued, fun u hu => ?_, fun r hr => ?_, fun r hr => ?_,
      h.timeouts⟩
    · simp [State.fence, hq] at hu
    · simp [hb] at hr
    · obtain ⟨q, hqm, rfl⟩ := List.mem_map.mp hr
      obtain ⟨hle, heq⟩ := h.pending q hqm
      refine ⟨hle, ?_⟩
      simp only [State.uncredited, hf] at heq
      simp only [State.uncredited, State.fence, hq, List.head?_nil, Waiting.credited]
      split <;> omega

/-- The requests a deadline check finds late: none while a fence is outstanding. -/
theorem due_of_late (ho : s.fence ≠ none → ∀ r ∈ s.pending, s.now < r.deadline) (hr : r ∈ s.pending)
    (hlate : r.deadline ≤ s.now) : Timeout.Due ⟨r, s.now⟩ := by
  have hf : s.fence = none := by
    by_contra hne
    exact absurd hlate (Nat.not_le.mpr (ho hne r hr))
  have := accounted_of_none (h.pending r hr) hf
  unfold Waiting.Exact at this
  show r.submitted + r.allowance + r.fenced ≤ s.now
  omega

theorem wp_expirePendingRequests
    (ho : s.fence ≠ none → ∀ r ∈ s.pending, s.now < r.deadline) (cancelled : Nat → Bool) :
    wp (expirePendingRequests cancelled) (keeps Invariant) s := by
  refine { h with pending := fun r hr => ?_, timeouts := fun u hu => ?_ }
  · exact h.pending r (List.mem_filter.mp (List.mem_filter.mp hr).1 |>.1)
  · rcases List.mem_append.mp hu with hu | hu
    · exact h.timeouts u hu
    · obtain ⟨r, hr, rfl⟩ := List.mem_map.mp hu
      obtain ⟨hr, hlate⟩ := List.mem_filter.mp hr
      exact due_of_late h ho (List.mem_filter.mp hr).1 (of_decide_eq_true hlate)

theorem wp_expireOne (ho : s.fence ≠ none → ∀ r ∈ s.pending, s.now < r.deadline) (id : Nat) :
    wp (expireOne id) (keeps Invariant) s := by
  refine { h with pending := fun r hr => ?_, timeouts := fun u hu => ?_ }
  · exact h.pending r (List.mem_filter.mp hr).1
  · rcases List.mem_append.mp hu with hu | hu
    · exact h.timeouts u hu
    · obtain ⟨r, hr, rfl⟩ := List.mem_map.mp hu
      obtain ⟨hr, hlate⟩ := List.mem_filter.mp hr
      exact due_of_late h ho hr (of_decide_eq_true hlate).2

theorem wp_leave (id : Nat) : wp (leave id) (keeps Invariant) s :=
  { h with pending := fun r hr => h.pending r (List.mem_filter.mp hr).1 }

theorem invariant_step (c : Command) (hm : May c s) (ho : Orderly c s) :
    wp (run c) (keeps Invariant) s := by
  cases c with
  | tick d => exact wp_tick h d
  | submit pendingDeadline => exact wp_submit h pendingDeadline
  | enqueue k => exact wp_enqueue h k
  | refuse k => exact wp_refuse h k
  | runAtQuiescence => exact wp_runAtQuiescence h ho
  | beginWork quiescent => exact wp_beginWork h hm quiescent
  | finishWork failure => exact wp_finishWork h ho failure
  | expirePendingRequests cancelled => exact wp_expirePendingRequests h ho cancelled
  | expireOne id => exact wp_expireOne h ho id
  | leave id => exact wp_leave h id

end

end Steps

theorem reached_invariant {s : State} (h : ReachedOrderly s) : Invariant s :=
  h.inv (fun _ => invariant_fresh) fun c _ hs hm => invariant_step hs c hm.1 hm.2

/-- In an orderly run a timeout comes only after the request has waited its allowance outside
    fences; no deadline is moved by more than the fenced waiting time, and with no fence
    outstanding it has been moved by exactly that. -/
theorem timeout_only_after_allowance {s : State} (h : ReachedOrderly s) :
    (∀ t ∈ s.timeouts, t.Due) ∧
    (∀ r ∈ s.pending, r.deadline ≤ r.submitted + r.allowance + r.fenced) ∧
    (s.fence = none → ∀ r ∈ s.pending, r.Exact) := by
  have hinv := reached_invariant h
  refine ⟨hinv.timeouts, fun r hr => ?_, fun hf r hr => accounted_of_none (hinv.pending r hr) hf⟩
  have := (hinv.pending r hr).2
  omega

/-- A fence with a drain of 5 and work of 20, a request that waits through it and one that
    arrives in the drain; both expire later, in order. -/
theorem timeout_only_after_allowance_run : ∃ s, ReachedOrderly s ∧
    s.timeouts.map (·.time) = [35, 38] ∧ ∀ t ∈ s.timeouts, t.Due := by
  have hrun : (trace run (fun c s => May c s ∧ Orderly c s)
      [.submit none, .enqueue 0, .tick 2, .runAtQuiescence, .beginWork false, .tick 3,
        .submit none, .enqueue 0, .expirePendingRequests fun _ => false, .tick 2,
        .beginWork true, .tick 20, .finishWork false,
        .expirePendingRequests fun _ => false, .tick 8, .expirePendingRequests fun _ => false,
        .tick 3, .expireOne 2] { pendingTimeout := 10 }).map (·.timeouts.map (·.time)) =
      some [35, 38] := by rfl
  obtain ⟨s, hs, ht⟩ := Option.map_eq_some_iff.mp hrun
  have hreach : ReachedOrderly s := .of_trace (.start ⟨10, rfl⟩) hs
  exact ⟨s, hreach, ht, (timeout_only_after_allowance hreach).1⟩

end Ninfer.Quiescence
