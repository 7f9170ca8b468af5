/-
  The capacity token of `EngineCore`: `outstanding_`.

  `submit` takes a unit of `outstanding_` under `queue_mutex_`, builds the request outside the
  lock and pushes it under a second lock. The unit goes back when the response is done and the
  consumer is released, whichever comes second. Completion (`complete_success`,
  `complete_error`) and release (`release_consumer`) are each two critical sections: one under
  the request's mutex that decides who gives the unit back, one under `queue_mutex_` that does.

  A step of the system is one critical section of one thread, so every interleaving of the
  clients and the worker is a run. The worker may answer any accepted request at any time, and
  more than once; that covers success, error, cancellation and the failure of all requests.

  The counter is the number of units that are out. That is not always the number of requests that
  are not both answered and released: between its two critical sections a return is decided and
  not yet made.

  Not modelled: what the response is, the texts a sink receives, allocation failure.
-/
import Ninfer.Lib.Reach
import Ninfer.Lib.Tally
import Ninfer.Engine.Request

namespace Ninfer.Outstanding

open Lib Function Finset

/-! ## State -/

/-- Where the client of one `submit` stands. -/
inductive Client where
  /-- In `submit`: the unit is taken, the request is not yet pushed. -/
  | reserved
  /-- `submit` threw after it had taken the unit. -/
  | refused
  /-- Holds the `Submission`. -/
  | holding
  /-- In the loop of `wait_for_request`; whether a sink or the cancellation view threw. -/
  | waiting (callerError : Bool)
  /-- About to run `release_consumer`: the wait is over, or the `Submission` was dropped. -/
  | leaving
  /-- `release_consumer` has to give the unit back and has not done so yet. -/
  | returning
  | gone
  deriving DecidableEq

/-- Where `complete_success` or `complete_error` stands on a request. -/
inductive Completion where
  | idle
  /-- The response is done; `mark_completed` has not run yet. -/
  | answered
  /-- `mark_completed` returned true and the unit is not back yet. -/
  | returning
  deriving DecidableEq

/-- One `submit` that took a unit, with the request it built. -/
structure Call where
  client : Client := .reserved
  responseDone : Bool := false
  consumerReleased : Bool := false
  capacityReleased : Bool := false
  completion : Completion := .idle
  /-- How often the unit was given back; the code has no such counter. -/
  returned : Nat := 0

structure State where
  maxConcurrency : Nat
  maxPendingRequests : Nat
  outstanding : Nat := 0
  stopping : Bool := false
  failed : Bool := false
  nextRequestId : UInt64 := 1
  nextPublicationOrder : UInt64 := 1
  calls : Nat → Call := fun _ => {}
  /-- How many submits took a unit. -/
  count : Nat := 0

variable (s : State)

def State.maxOutstanding : Nat := s.maxConcurrency + s.maxPendingRequests

/-! ## Critical sections -/

/-- `--outstanding_` on a `size_t`. -/
def decrement (n : Nat) : Nat := if n = 0 then 2 ^ 64 - 1 else n - 1

/-- `release_reserved_capacity`. -/
def releaseReservedCapacity (n : Nat) : Nat := if n ≠ 0 then decrement n else n

variable (i : Nat)

variable (c : Call)

def setCall (outstanding : Nat) : Eff State Unit :=
  Eff.modify fun s => { s with calls := update s.calls i c, outstanding }

/-- Run `k` on the call `i` if there is one. -/
def withCall (k : Call → Nat → Eff State Unit) : Eff State Unit := do
  let s ← Eff.get
  Eff.when (i < s.count) (k (s.calls i) s.outstanding)

/-- The first critical section of `submit`; `expired` is `submitted >= pending_deadline`. -/
def submit (expired : Bool) : Eff State Unit := do
  let s ← Eff.get
  if expired then
    Eff.raise (requestError .queueTimeout "inference request expired before submission")
  else if s.stopping ∨ s.failed then
    Eff.raise (requestError .unavailable "inference engine is unavailable")
  else if s.maxOutstanding ≤ s.outstanding then
    Eff.raise (requestError .overloaded "inference request queue is full")
  else if s.nextRequestId = 0 ∨ s.nextPublicationOrder = 0 then
    Eff.raise (.overflowError "request identity space exhausted")
  else
    Eff.modify fun s => { s with
      outstanding := s.outstanding + 1
      nextRequestId := s.nextRequestId + 1
      nextPublicationOrder := s.nextPublicationOrder + 1
      calls := update s.calls s.count {}
      count := s.count + 1 }

/-- The request could not be built: the catch block of `submit`. -/
def constructFails : Eff State Unit := withCall i fun c n =>
  Eff.when (c.client = .reserved) do
    setCall i { c with client := .refused, returned := c.returned + 1 } (releaseReservedCapacity n)

/-- The second critical section of `submit`. -/
def enqueue : Eff State Unit := withCall i fun c n =>
  Eff.when (c.client = .reserved) do
    let s ← Eff.get
    if s.stopping ∨ s.failed then
      setCall i { c with client := .refused, returned := c.returned + 1 } (decrement n)
      Eff.raise (requestError .unavailable "inference engine is unavailable")
    else
      setCall i { c with client := .holding } n

/-- `Submission::wait`; `sinkMatches` is that a sink is given exactly to a streaming request. -/
def wait (sinkMatches : Bool) : Eff State Unit := withCall i fun c n =>
  Eff.when (c.client = .holding) do
    if sinkMatches then setCall i { c with client := .waiting false } n
    else Eff.raise (.invalidArgument
      "GenerationHandle wait sink does not match its submitted consumer mode")

/-- One turn of the loop of `wait_for_request`. The turn that finds the response done is the
    last, whether or not the caller's own code threw. -/
def poll (sinkThrows cancellationThrows : Bool) : Eff State Unit :=
  withCall i fun c n =>
    match c.client with
    | .waiting callerError =>
      if c.responseDone then setCall i { c with client := .leaving } n
      else setCall i
        { c with client := .waiting (callerError || sinkThrows || cancellationThrows) } n
    | _ => pure ()

/-- A `Submission` that is dropped unwaited: `abandon_request` up to `release_consumer`. -/
def drop : Eff State Unit := withCall i fun c n =>
  Eff.when (c.client = .holding) (setCall i { c with client := .leaving } n)

/-- `release_consumer` up to the end of its critical section. -/
def releaseConsumer : Eff State Unit := withCall i fun c n =>
  Eff.when (c.client = .leaving) do
    if c.responseDone ∧ ¬ c.capacityReleased then
      setCall i
        { c with client := .returning, consumerReleased := true, capacityReleased := true } n
    else setCall i { c with client := .gone, consumerReleased := true } n

/-- The end of `release_consumer`. -/
def clientReturns : Eff State Unit := withCall i fun c n =>
  Eff.when (c.client = .returning) (setCall i { c with client := .gone, returned := c.returned + 1 }
      (releaseReservedCapacity n))

/-- `complete_success` or `complete_error` up to the end of the critical section that sets the
    response. Only a pushed request can be answered. -/
def complete : Eff State Unit := withCall i fun c n =>
  Eff.when (c.client ≠ .reserved ∧ c.client ≠ .refused) do
    if c.responseDone then pure ()
    else setCall i { c with responseDone := true, completion := .answered } n

def markCompleted : Eff State Unit := withCall i fun c n =>
  Eff.when (c.completion = .answered) do
    if c.consumerReleased ∧ ¬ c.capacityReleased then
      setCall i { c with completion := .returning, capacityReleased := true } n
    else setCall i { c with completion := .idle } n

/-- The end of `complete_success` or `complete_error`. -/
def completionReturns : Eff State Unit := withCall i fun c n =>
  Eff.when (c.completion = .returning)
    (setCall i { c with completion := .idle, returned := c.returned + 1 }
      (releaseReservedCapacity n))

/-! ## Runs -/

inductive Command where
  | submit (expired : Bool)
  | constructFails (i : Nat)
  | enqueue (i : Nat)
  | wait (i : Nat) (sinkMatches : Bool)
  | poll (i : Nat) (sinkThrows cancellationThrows : Bool)
  | drop (i : Nat)
  | releaseConsumer (i : Nat)
  | clientReturns (i : Nat)
  | complete (i : Nat)
  | markCompleted (i : Nat)
  | completionReturns (i : Nat)
  /-- `~EngineCore` sets `stopping_`. -/
  | stop
  /-- `fail_all_locked` sets `failed_`; what it answers are `complete` steps. -/
  | fail

def run : Command → Eff State Unit
  | .submit expired => submit expired
  | .constructFails i => constructFails i
  | .enqueue i => enqueue i
  | .wait i sinkMatches => wait i sinkMatches
  | .poll i sinkThrows cancellationThrows => poll i sinkThrows cancellationThrows
  | .drop i => drop i
  | .releaseConsumer i => releaseConsumer i
  | .clientReturns i => clientReturns i
  | .complete i => complete i
  | .markCompleted i => markCompleted i
  | .completionReturns i => completionReturns i
  | .stop => Eff.modify fun s => { s with stopping := true }
  | .fail => Eff.modify fun s => { s with failed := true }

def Fresh : Prop :=
  ∃ maxConcurrency maxPendingRequests, s = { maxConcurrency, maxPendingRequests }

/-- Every interleaving is allowed. -/
abbrev Reached : State → Prop := Reach Fresh run fun _ _ => True

/-! ## Units -/

/-- The request was pushed: its `submit` succeeded. -/
def Call.accepted : Prop := c.client ≠ .reserved ∧ c.client ≠ .refused
  deriving Decidable

/-- Answered and released. -/
def Call.settled : Prop := c.responseDone = true ∧ c.consumerReleased = true
  deriving Decidable

/-- Settled, and the one thread that gives the unit back has not done so yet. -/
def Call.returnPending : Prop :=
  c.settled ∧ (c.capacityReleased = false ∨ c.client = .returning ∨ c.completion = .returning)
  deriving Decidable

/-- The units the call has out. -/
def Call.unit : Nat :=
  if c.client = .reserved ∨ (c.accepted ∧ (¬ c.settled ∨ c.returnPending)) then 1 else 0

structure CallOk (c : Call) : Prop where
  unaccepted : ¬ c.accepted →
    c.responseDone = false ∧ c.consumerReleased = false ∧ c.completion = .idle
  capacity : c.capacityReleased = true → c.settled
  consumer : c.consumerReleased = true ↔ c.client = .returning ∨ c.client = .gone
  /-- Settled without a decision: `mark_completed` is still to come. -/
  undecided : c.settled → c.capacityReleased = false → c.completion = .answered
  byClient : c.client = .returning → c.capacityReleased = true ∧ c.completion ≠ .returning
  byCompletion : c.completion = .returning → c.capacityReleased = true
  answered : c.completion ≠ .idle → c.responseDone = true
  once : c.returned + c.unit = 1

structure Invariant (s : State) : Prop where
  units : s.outstanding = ∑ i ∈ range s.count, (s.calls i).unit
  bound : s.outstanding ≤ s.maxOutstanding
  call : ∀ i < s.count, CallOk (s.calls i)

theorem invariant_fresh {s : State} (h : Fresh s) : Invariant s := by
  obtain ⟨maxConcurrency, maxPendingRequests, rfl⟩ := h
  exact ⟨rfl, Nat.zero_le _, fun i hi => absurd hi (Nat.not_lt_zero i)⟩

/-! ## Edits -/

theorem callOk_reserved : CallOk {} := by
  constructor <;> simp [Call.accepted, Call.settled, Call.unit]

section Edits

variable {s : State} {i : Nat} {c : Call}

/-- One call changes and the counter with it. -/
theorem Invariant.edit (h : Invariant s) (hi : i < s.count) (hc : CallOk c) {n : Nat}
    (hn : n + (s.calls i).unit = s.outstanding + c.unit) (hle : n ≤ s.outstanding) :
    Invariant { s with calls := update s.calls i c, outstanding := n } where
  units := by
    have hsum := tally_update s.count i hi s.calls c Call.unit
    have := h.units
    show n = ∑ j ∈ range s.count, (update s.calls i c j).unit
    omega
  bound := hle.trans h.bound
  call := by
    intro j hj
    by_cases hji : j = i
    · subst hji
      simpa using hc
    · simpa [update_of_ne hji] using h.call j hj

/-- The call changes and keeps its unit, or the lack of one. -/
theorem Invariant.keep (h : Invariant s) (hi : i < s.count) (hc : CallOk c)
    (hr : c.returned = (s.calls i).returned) :
    Invariant { s with calls := update s.calls i c, outstanding := s.outstanding } := by
  have := hc.once
  have := (h.call i hi).once
  exact h.edit hi hc (by omega) (Nat.le_refl _)

theorem Invariant.outstanding_pos (h : Invariant s) (hi : i < s.count)
    (hu : (s.calls i).unit = 1) : 0 < s.outstanding := by
  have := le_tally s.count i hi fun j => (s.calls j).unit
  have := h.units
  omega

theorem decrement_of_pos {n : Nat} (h : 0 < n) : decrement n = n - 1 := by
  unfold decrement
  rw [if_neg (by omega)]

theorem releaseReservedCapacity_eq {n : Nat} (h : 0 < n) : releaseReservedCapacity n = n - 1 := by
  unfold releaseReservedCapacity
  rw [if_pos (by omega), decrement_of_pos h]

/-- The call gives its unit back. -/
theorem Invariant.giveBack (h : Invariant s) (hi : i < s.count) (hc : CallOk c)
    (hr : c.returned = (s.calls i).returned + 1) :
    0 < s.outstanding ∧
      Invariant { s with calls := update s.calls i c, outstanding := s.outstanding - 1 } := by
  have hnew := hc.once
  have hold := (h.call i hi).once
  have hpos := h.outstanding_pos hi (by omega)
  exact ⟨hpos, h.edit hi hc (by omega) (by omega)⟩

theorem wp_withCall {k : Call → Nat → Eff State Unit} (hs : Invariant s)
    (hk : i < s.count → CallOk (s.calls i) → wp (k (s.calls i) s.outstanding) (keeps Invariant) s) :
    wp (withCall i k) (keeps Invariant) s := by
  simp only [withCall, wp_bind, wp_get, wp_when]
  exact ⟨fun hi => hk hi (hs.call i hi), fun _ => hs⟩

end Edits

/-! ## What a call does between two critical sections -/

namespace CallOk

attribute [local simp] Call.accepted Call.settled Call.unit Call.returnPending

variable {c : Call}

section

variable (h : CallOk c)

include h

theorem unreleased (hc : c.client ≠ .returning ∧ c.client ≠ .gone) :
    c.consumerReleased = false := by
  have := h.consumer
  simp_all

theorem undecided_of_not_settled (hc : ¬ c.settled) : c.capacityReleased = false :=
  Bool.eq_false_iff.mpr (mt h.capacity hc)

theorem not_returning (hc : c.capacityReleased = false) :
    c.client ≠ .returning ∧ c.completion ≠ .returning := by
  have := h.byClient
  have := h.byCompletion
  simp_all

theorem refused (hc : c.client = .reserved) :
    CallOk { c with client := .refused, returned := c.returned + 1 } := by
  have hu := h.unaccepted (by simp [Call.accepted, hc])
  have := h.once
  have := h.capacity
  constructor <;> simp_all

theorem holding (hc : c.client = .reserved) :
    CallOk { c with client := .holding } := by
  have hu := h.unaccepted (by simp [Call.accepted, hc])
  have := h.once
  have := h.capacity
  constructor <;> simp_all

theorem accepted_of_completion (hc : c.completion ≠ .idle) : c.accepted := by
  by_contra hn
  exact hc (h.unaccepted hn).2.2

/-- The client moves between holding, waiting and leaving. -/
theorem moved {client : Client} (hc : c.accepted)
    (hr : c.client ≠ .returning ∧ c.client ≠ .gone)
    (hc' : client ≠ .reserved ∧ client ≠ .refused)
    (hr' : client ≠ .returning ∧ client ≠ .gone) : CallOk { c with client } := by
  have hcons := h.unreleased hr
  have hcap := h.undecided_of_not_settled (by simp [hcons])
  have := h.byCompletion
  have := h.answered
  have := h.once
  obtain ⟨hc1, hc2⟩ := hc
  constructor <;> simp_all

/-- `release_consumer` on an answered request takes the return on itself. -/
theorem released_answered (hc : c.client = .leaving) (hd : c.responseDone = true)
    (hcap : c.capacityReleased = false) :
    CallOk { c with client := .returning, consumerReleased := true, capacityReleased := true } := by
  have hcomp := h.not_returning hcap
  have hcons := h.unreleased (by simp [hc])
  have := h.once
  constructor <;> simp_all

/-- `release_consumer` on a request that is not answered leaves the return to `mark_completed`. -/
theorem released_unanswered (hc : c.client = .leaving)
    (hd : ¬ (c.responseDone = true ∧ ¬ c.capacityReleased = true)) :
    CallOk { c with client := .gone, consumerReleased := true } := by
  have hcons := h.unreleased (by simp [hc])
  have hcap := h.undecided_of_not_settled (by simp [hcons])
  have hdone : c.responseDone = false := by simp_all
  have := h.answered
  have := h.once
  constructor <;> simp_all

theorem client_returned (hc : c.client = .returning) :
    CallOk { c with client := .gone, returned := c.returned + 1 } := by
  have hcap := h.byClient hc
  have := h.capacity hcap.1
  have := h.once
  constructor <;> simp_all

theorem completed (hc : c.accepted) (hd : c.responseDone = false) :
    CallOk { c with responseDone := true, completion := .answered } := by
  have hcap := h.undecided_of_not_settled (by simp [hd])
  have hcl := h.not_returning hcap
  have := h.consumer
  have := h.once
  obtain ⟨hc1, hc2⟩ := hc
  constructor <;> simp_all

/-- `mark_completed` on a released request takes the return on itself. -/
theorem marked_released (hc : c.completion = .answered)
    (hr : c.consumerReleased = true) (hcap : c.capacityReleased = false) :
    CallOk { c with completion := .returning, capacityReleased := true } := by
  have hd := h.answered (by simp [hc])
  have hcl := h.not_returning hcap
  have hcons := h.consumer
  have := h.once
  obtain ⟨hc1, hc2⟩ := h.accepted_of_completion (by simp [hc])
  constructor <;> simp_all

/-- `mark_completed` leaves the return to the consumer, or finds it decided. -/
theorem marked_unreleased (hc : c.completion = .answered)
    (hr : ¬ (c.consumerReleased = true ∧ ¬ c.capacityReleased = true)) :
    CallOk { c with completion := .idle } := by
  have hd := h.answered (by simp [hc])
  have := h.capacity
  have := h.consumer
  have := h.byClient
  have := h.once
  obtain ⟨hc1, hc2⟩ := h.accepted_of_completion (by simp [hc])
  constructor <;> simp_all

theorem completion_returned (hc : c.completion = .returning) :
    CallOk { c with completion := .idle, returned := c.returned + 1 } := by
  have hcap := h.byCompletion hc
  have hset := h.capacity hcap
  have hcl : c.client ≠ .returning := by
    intro e
    exact (h.byClient e).2 hc
  have hcons := h.consumer
  have := h.once
  obtain ⟨hc1, hc2⟩ := h.accepted_of_completion (by simp [hc])
  constructor <;> simp_all

end

end CallOk

/-! ## Every critical section keeps the accounts -/

section Steps

variable {s : State} {i : Nat}

section

variable (h : Invariant s)

include h

theorem wp_submit (expired : Bool) : wp (submit expired) (keeps Invariant) s := by
  simp only [submit, wp_bind, wp_get, wp_ite, wp_raise, wp_modify]
  refine ⟨fun _ => h, fun _ => ⟨fun _ => h, fun _ =>
    ⟨fun _ => h, fun hlt => ⟨fun _ => h, fun _ => ?_⟩⟩⟩⟩
  refine ⟨?_, by show s.outstanding + 1 ≤ s.maxOutstanding; omega, ?_⟩
  · show s.outstanding + 1 = ∑ j ∈ range (s.count + 1), (update s.calls s.count {} j).unit
    rw [sum_range_succ, update_self, tally_update_of_le s.count s.count (Nat.le_refl _) s.calls {}
      Call.unit, h.units]
    rfl
  · intro j hj
    by_cases hji : j = s.count
    · subst hji
      simpa using callOk_reserved
    · have hj' : j < s.count + 1 := hj
      simpa [update_of_ne hji] using h.call j (by omega)

/-- A critical section that gives the unit of a call back. -/
theorem wp_giveBack {now : Call → Prop} [DecidablePred now] {next : Call → Call}
    (hnext : ∀ {c}, CallOk c → now c → CallOk (next c) ∧ (next c).returned = c.returned + 1) :
    wp (withCall i fun c n => Eff.when (now c) (setCall i (next c) (releaseReservedCapacity n)))
      (keeps Invariant) s := by
  refine wp_withCall h fun hi hc => ?_
  simp only [wp_when, setCall, wp_modify]
  refine ⟨fun hr => ?_, fun _ => h⟩
  obtain ⟨hok, hreturned⟩ := hnext hc hr
  obtain ⟨hpos, hinv⟩ := h.giveBack hi hok hreturned
  rw [releaseReservedCapacity_eq hpos]
  exact hinv

theorem wp_constructFails : wp (constructFails i) (keeps Invariant) s :=
  wp_giveBack h fun hc hr => ⟨hc.refused hr, rfl⟩

theorem wp_enqueue : wp (enqueue i) (keeps Invariant) s := by
  refine wp_withCall h fun hi hc => ?_
  simp only [wp_when, wp_bind, wp_get, wp_ite, setCall, wp_modify, wp_raise]
  refine ⟨fun hr => ⟨fun _ => ?_, fun _ => h.keep hi (hc.holding hr) rfl⟩, fun _ => h⟩
  obtain ⟨hpos, hinv⟩ := h.giveBack hi (hc.refused hr) rfl
  rw [decrement_of_pos hpos]
  exact hinv

theorem wp_wait (sinkMatches : Bool) :
    wp (wait i sinkMatches) (keeps Invariant) s := by
  refine wp_withCall h fun hi hc => ?_
  simp only [wp_when, wp_ite, setCall, wp_modify, wp_raise]
  refine ⟨fun hr => ⟨fun _ => h.keep hi ?_ rfl, fun _ => h⟩, fun _ => h⟩
  exact hc.moved (by simp [Call.accepted, hr]) (by simp [hr]) (by simp) (by simp)

theorem wp_poll (sinkThrows cancellationThrows : Bool) :
    wp (poll i sinkThrows cancellationThrows) (keeps Invariant) s := by
  refine wp_withCall h fun hi hc => ?_
  split
  next callerError hr =>
    simp only [wp_ite, setCall, wp_modify]
    refine ⟨fun _ => h.keep hi ?_ rfl, fun _ => h.keep hi ?_ rfl⟩ <;>
      exact hc.moved (by simp [Call.accepted, hr]) (by simp [hr]) (by simp) (by simp)
  next => exact h

theorem wp_drop : wp (drop i) (keeps Invariant) s := by
  refine wp_withCall h fun hi hc => ?_
  simp only [wp_when, setCall, wp_modify]
  refine ⟨fun hr => h.keep hi ?_ rfl, fun _ => h⟩
  exact hc.moved (by simp [Call.accepted, hr]) (by simp [hr]) (by simp) (by simp)

theorem wp_releaseConsumer : wp (releaseConsumer i) (keeps Invariant) s := by
  refine wp_withCall h fun hi hc => ?_
  simp only [wp_when, wp_ite, setCall, wp_modify]
  refine ⟨fun hr => ⟨fun hd => h.keep hi ?_ rfl, fun hd => h.keep hi ?_ rfl⟩, fun _ => h⟩
  · exact hc.released_answered hr hd.1 (by simpa using hd.2)
  · exact hc.released_unanswered hr hd

theorem wp_clientReturns : wp (clientReturns i) (keeps Invariant) s :=
  wp_giveBack h fun hc hr => ⟨hc.client_returned hr, rfl⟩

theorem wp_complete : wp (complete i) (keeps Invariant) s := by
  refine wp_withCall h fun hi hc => ?_
  simp only [wp_when, wp_ite, wp_pure, setCall, wp_modify]
  refine ⟨fun hr => ⟨fun _ => h, fun hd => h.keep hi ?_ rfl⟩, fun _ => h⟩
  exact hc.completed hr (by simpa using hd)

theorem wp_markCompleted : wp (markCompleted i) (keeps Invariant) s := by
  refine wp_withCall h fun hi hc => ?_
  simp only [wp_when, wp_ite, setCall, wp_modify]
  refine ⟨fun hr => ⟨fun hd => h.keep hi ?_ rfl, fun hd => h.keep hi ?_ rfl⟩, fun _ => h⟩
  · exact hc.marked_released hr hd.1 (by simpa using hd.2)
  · exact hc.marked_unreleased hr hd

theorem wp_completionReturns : wp (completionReturns i) (keeps Invariant) s :=
  wp_giveBack h fun hc hr => ⟨hc.completion_returned hr, rfl⟩

theorem invariant_step (c : Command) : wp (run c) (keeps Invariant) s := by
  cases c with
  | submit expired => exact wp_submit h expired
  | constructFails i => exact wp_constructFails h
  | enqueue i => exact wp_enqueue h
  | wait i sinkMatches => exact wp_wait h sinkMatches
  | poll i sinkThrows cancellationThrows => exact wp_poll h sinkThrows cancellationThrows
  | drop i => exact wp_drop h
  | releaseConsumer i => exact wp_releaseConsumer h
  | clientReturns i => exact wp_clientReturns h
  | complete i => exact wp_complete h
  | markCompleted i => exact wp_markCompleted h
  | completionReturns i => exact wp_completionReturns h
  | stop => exact ⟨h.units, h.bound, h.call⟩
  | fail => exact ⟨h.units, h.bound, h.call⟩

end

theorem reached_invariant (h : Reached s) : Invariant s :=
  h.inv (fun _ => invariant_fresh) fun c _ hs _ => invariant_step hs c

end Steps

/-! ## The counter -/

/-- Submits that took a unit and have neither pushed their request nor thrown. -/
def State.reservations : Nat :=
  ((range s.count).filter fun i => (s.calls i).client = .reserved).card

/-- Accepted requests not yet both answered and released. -/
def State.unsettled : Nat :=
  ((range s.count).filter fun i => (s.calls i).accepted ∧ ¬ (s.calls i).settled).card

/-- Accepted requests whose unit is on its way back. -/
def State.returnsPending : Nat :=
  ((range s.count).filter fun i => (s.calls i).accepted ∧ (s.calls i).returnPending).card

/-- No thread is between two critical sections of `submit`, of a completion or of a release. -/
def State.Quiet : Prop :=
  ∀ i < s.count, (s.calls i).client ≠ .reserved ∧ (s.calls i).client ≠ .returning ∧
    (s.calls i).completion = .idle

theorem unit_eq : c.unit = (if c.client = .reserved then 1 else 0) +
      (if c.accepted ∧ ¬ c.settled then 1 else 0) +
      (if c.accepted ∧ c.returnPending then 1 else 0) := by
  unfold Call.unit Call.returnPending
  by_cases hr : c.client = .reserved
  · simp [hr, Call.accepted]
  · by_cases ha : c.accepted
    · by_cases hs : c.settled <;> simp [hr, ha, hs]
    · simp [hr, ha]

theorem Invariant.outstanding_eq {s : State} (h : Invariant s) :
    s.outstanding = s.reservations + s.unsettled + s.returnsPending := by
  unfold State.reservations State.unsettled State.returnsPending
  rw [h.units, card_filter, card_filter, card_filter, ← sum_add_distrib, ← sum_add_distrib]
  exact sum_congr rfl fun i _ => unit_eq _

theorem CallOk.returned_iff {c : Call} (h : CallOk c) :
    c.returned = 1 ↔ c.client = .refused ∨ (c.accepted ∧ c.settled ∧ ¬ c.returnPending) := by
  have hu : c.returned = 1 ↔ ¬ (c.client = .reserved ∨
      (c.accepted ∧ (¬ c.settled ∨ c.returnPending))) := by
    have := h.once
    unfold Call.unit at this
    split at this
    next hp => simp only [hp, not_true, iff_false]; omega
    next hp => simp only [hp, not_false_eq_true, iff_true]; omega
  rw [hu]
  by_cases hr : c.client = .reserved
  · simp [hr, Call.accepted]
  · by_cases hf : c.client = .refused
    · simp [hf, Call.accepted]
    · simp [hr, hf, Call.accepted]

theorem Invariant.returnsPending_of_quiet {s : State} (h : Invariant s) (hq : s.Quiet) :
    s.reservations = 0 ∧ s.returnsPending = 0 := by
  refine ⟨card_eq_zero.mpr (filter_eq_empty_iff.mpr fun i hi => ?_),
    card_eq_zero.mpr (filter_eq_empty_iff.mpr fun i hi => ?_)⟩
  · exact (hq i (mem_range.mp hi)).1
  · rintro ⟨-, hset, hp⟩
    obtain ⟨-, hclient, hcomp⟩ := hq i (mem_range.mp hi)
    rcases hp with hp | hp | hp
    · have := (h.call i (mem_range.mp hi)).undecided hset hp
      simp [hcomp] at this
    · exact hclient hp
    · simp [hcomp] at hp

/-- In every state of every run the counter is the number of submits under way, plus the
    accepted requests not both answered and released, plus those whose one return has been
    decided and not made. A unit goes back once at most, and has gone back exactly for a submit
    that threw and for a settled request without a return under way. The counter is never
    decremented at zero, never above its bound, and with no thread between two critical
    sections it is the number of requests not both answered and released. -/
theorem outstanding_accounts {s : State} (h : Reached s) :
    s.outstanding = s.reservations + s.unsettled + s.returnsPending ∧
    s.outstanding ≤ s.maxConcurrency + s.maxPendingRequests ∧
    (∀ i < s.count, (s.calls i).returned ≤ 1 ∧
      ((s.calls i).returned = 1 ↔ (s.calls i).client = .refused ∨
        ((s.calls i).accepted ∧ (s.calls i).settled ∧ ¬ (s.calls i).returnPending))) ∧
    (∀ i < s.count, (s.calls i).client = .reserved ∨ (s.calls i).client = .returning ∨
      (s.calls i).completion = .returning → 0 < s.outstanding) ∧
    (s.Quiet → s.outstanding = s.unsettled) := by
  have hinv := reached_invariant h
  refine ⟨hinv.outstanding_eq, hinv.bound, fun i hi => ?_, fun i hi hc => ?_, fun hq => ?_⟩
  · have := (hinv.call i hi).once
    exact ⟨by omega, (hinv.call i hi).returned_iff⟩
  · refine hinv.outstanding_pos hi ?_
    have hok := hinv.call i hi
    unfold Call.unit
    rcases hc with hc | hc | hc
    · simp [hc]
    · have := hok.capacity (hok.byClient hc).1
      simp [hc, Call.accepted, Call.returnPending, this]
    · have := hok.capacity (hok.byCompletion hc)
      have ha := hok.accepted_of_completion (by simp [hc])
      simp [hc, ha, Call.returnPending, this]
  · have := hinv.outstanding_eq
    have := hinv.returnsPending_of_quiet hq
    omega

/-- The `Submission` is dropped, then the worker answers: until `mark_completed` has run and
    the unit is back, no request is open and the counter still says one. -/
theorem return_lags : ∃ s, Reached s ∧ s.reservations = 0 ∧ s.unsettled = 0 ∧
    s.outstanding = 1 := by
  have hrun : (trace run (fun _ _ => True)
      [.submit false, .enqueue 0, .drop 0, .releaseConsumer 0, .complete 0]
      { maxConcurrency := 1, maxPendingRequests := 1 }).map
      (fun s => (s.reservations, s.unsettled, s.outstanding)) = some (0, 0, 1) := by rfl
  obtain ⟨s, hs, he⟩ := Option.map_eq_some_iff.mp hrun
  simp only [Prod.mk.injEq] at he
  exact ⟨s, .of_trace (.start ⟨1, 1, rfl⟩) hs, he.1, he.2.1, he.2.2⟩

/-- A run in which a submit fails, one request is waited for and one is dropped. -/
theorem outstanding_accounts_run : ∃ s, Reached s ∧
    s.outstanding = s.reservations + s.unsettled + s.returnsPending ∧ s.outstanding = 1 ∧
    s.count = 3 := by
  have hrun : (trace run (fun _ _ => True)
      [.submit false, .enqueue 0, .wait 0 true, .poll 0 true false, .submit false,
        .constructFails 1, .submit false, .enqueue 2, .complete 0, .poll 0 false false,
        .markCompleted 0, .releaseConsumer 0, .clientReturns 0, .drop 2]
      { maxConcurrency := 1, maxPendingRequests := 1 }).map
      (fun s => (s.outstanding, s.count)) = some (1, 3) := by rfl
  obtain ⟨s, hs, he⟩ := Option.map_eq_some_iff.mp hrun
  have hreach : Reached s := .of_trace (.start ⟨1, 1, rfl⟩) hs
  simp only [Prod.mk.injEq] at he
  exact ⟨s, hreach, (outstanding_accounts hreach).1, he.1, he.2⟩

end Ninfer.Outstanding
