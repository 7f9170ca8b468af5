/-
  The session index over whole runs.

  In every state of a run whose publication orders are distinct a key has at most one cell, a
  lookup finds it through whatever tombstones earlier erasures left, and the cell describes the
  owner it names. Orders only grow while a key stays bound, and a lane that is to publish always
  finds a cell: its own reserved slot is one that no occupied cell names.
-/
import Ninfer.Resources.System

namespace Ninfer.Resources

open Lib Function

/-! ## Bindings -/

/-- The key is bound with the order. -/
def BoundAt (s : ResourceManager) (key : CacheSessionKey) (order : Nat) : Prop :=
  ∃ c < s.catalogCount, (s.sessionIndex c).state = .occupied ∧ (s.sessionIndex c).key = key ∧
    (s.sessionIndex c).publicationOrder = order

namespace ManagerSystem

/-- A run from `s` on with the key bound in every state of it. -/
inductive StaysBound (key : CacheSessionKey) (s : ManagerSystem) : ManagerSystem → Prop where
  | start {order : Nat} (h : BoundAt s.rm key order) : StaysBound key s s
  | next {t u : ManagerSystem} {order : Nat} (c : Command) (h : StaysBound key s t) (hm : May c t)
      (hl : (run c t).Lands u) (hb : BoundAt u.rm key order) : StaysBound key s u

variable {s t : ManagerSystem} {key : CacheSessionKey}

theorem StaysBound.reached (h : StaysBound key s t) (hs : Reached s) : Reached t := by
  induction h with
  | start => exact hs
  | next c _ hm hl _ ih => exact .next c ih hm hl

theorem StaysBound.bound (h : StaysBound key s t) : ∃ order, BoundAt t.rm key order := by
  cases h with
  | start h => exact ⟨_, h⟩
  | next _ _ _ _ hb => exact ⟨_, hb⟩

/-- One command does not lower the order of a key. -/
theorem Step.order_le (h : Step s t) {a b : Nat} (ha : BoundAt s.rm key a)
    (hb : BoundAt t.rm key b) : a ≤ b := by
  obtain ⟨c, hc, hco, hck, rfl⟩ := ha
  obtain ⟨d, hd, hdo, hdk, rfl⟩ := hb
  exact h.2.2 c hc d (h.2.1 ▸ hd) hco hdo (hck.trans hdk.symm)

theorem boundAt_unique (h : Inv s) {a b : Nat} (ha : BoundAt s.rm key a)
    (hb : BoundAt s.rm key b) : a = b := by
  obtain ⟨c, hc, hco, hck, rfl⟩ := ha
  obtain ⟨d, hd, hdo, hdk, rfl⟩ := hb
  rw [h.manager.sound.indexed.linked.unique c hc d hd hco hdo (hck.trans hdk.symm)]

/-- Nor does a run that keeps the key bound. -/
theorem StaysBound.order_le (h : StaysBound key s t) (hs : Reached s) {a b : Nat}
    (ha : BoundAt s.rm key a) (hb : BoundAt t.rm key b) : a ≤ b := by
  induction h generalizing b with
  | start => exact (boundAt_unique (inv_of_reached hs) ha hb).le
  | @next t u _ c ht hm hl _ ih =>
    obtain ⟨m, hmid⟩ := ht.bound
    have hstep : Step t u := wp_lands (wp_run (inv_of_reached (ht.reached hs)) hm) hl
    exact (ih hmid).trans (hstep.order_le hmid hb)

end ManagerSystem

/-! ## Room -/

/-- The index has a free cell for the lane: its reserved slot is in no occupied cell. -/
theorem Invariant.insertCell {s : ResourceManager} {log : List Nat} (h : Invariant s log) {l : Nat}
    (hl : l < s.laneCount) (ho : (s.active l).occupied) (key : CacheSessionKey) :
    ∃ c, sessionInsertCell s.catalogCount s.sessionIndex key = some c := by
  obtain ⟨j, hj, hslot, _⟩ := (h.sound.lane l hl).publication ho
  have hst := (h.sound.priv j hj).reserved.mpr ⟨l, hl, ho, hslot⟩
  refine h.sound.indexed.insertCell hj (h.sound.indexed.unnamed_of_not_kept ?_) key
  rintro (hk | hk) <;> simp [hst] at hk

/-- With room in the index a publication fails for its order only. -/
theorem publishSession_threw {s t : ResourceManager} {key : CacheSessionKey} {slot order : Nat}
    {ownerId revision : UInt64} {e : Fault} (hn : s.catalogCount ≠ 0)
    (hc : ∃ c, sessionInsertCell s.catalogCount s.sessionIndex key = some c)
    (h : publishSession key slot ownerId revision order s = .throw e t) :
    e = .logicError "equal publication order names two continuations" := by
  obtain ⟨c, hc⟩ := hc
  have hwp : wp (publishSession key slot ownerId revision order)
      ⟨fun _ _ => True,
        fun e _ => e = .logicError "equal publication order names two continuations",
        True⟩ s := by
    unfold publishSession
    simp only [wp_bind, wp_get, wp_require, hc]
    refine ⟨fun hz => absurd hn hz, fun _ => ?_⟩
    rw [wp_ite]
    refine ⟨fun _ => ?_, fun _ => ?_⟩
    · simp
    · simp
  exact wp_threw hwp h

/-! ## The index -/

/-- The session index is correct in every state of a run with distinct publication orders. -/
theorem session_index_correct (s : ManagerSystem) (h : ManagerSystem.Reached s) :
    (∀ c < s.rm.catalogCount, ∀ d < s.rm.catalogCount, (s.rm.sessionIndex c).state = .occupied →
      (s.rm.sessionIndex d).state = .occupied →
      (s.rm.sessionIndex c).key = (s.rm.sessionIndex d).key → c = d) ∧
    (∀ key c, findSessionCell s.rm.catalogCount s.rm.sessionIndex key = some c ↔
      c < s.rm.catalogCount ∧ (s.rm.sessionIndex c).state = .occupied ∧
        (s.rm.sessionIndex c).key = key) ∧
    (∀ c < s.rm.catalogCount, (s.rm.sessionIndex c).state = .occupied →
      ∃ j < s.rm.catalogCount, (s.rm.sessionIndex c).slot = some j ∧
        ((s.rm.catalog j).state = .catalogued ∨ (s.rm.catalog j).state = .claimed) ∧
        (s.rm.sessionIndex c).ownerId = (s.rm.catalog j).id ∧
        (s.rm.sessionIndex c).revision = (s.rm.catalog j).revision ∧
        (s.rm.catalog j).session = some (s.rm.sessionIndex c).key) ∧
    (∀ key t a b, ManagerSystem.StaysBound key s t → BoundAt s.rm key a → BoundAt t.rm key b →
      a ≤ b) ∧
    (∀ view lane key o t, finish view lane s.rm = .ok o t → (s.rm.active lane).session = some key →
      HeldByNewer s.rm key (s.rm.active lane).publicationOrder →
      t.sessionIndex = s.rm.sessionIndex) ∧
    (∀ l < s.rm.laneCount, (s.rm.active l).occupied → ∀ key slot ownerId revision order e t u,
      u.catalogCount = s.rm.catalogCount → u.sessionIndex = s.rm.sessionIndex →
      publishSession key slot ownerId revision order u = .throw e t →
      e = .logicError "equal publication order names two continuations") := by
  have hinv := ManagerSystem.inv_of_reached h
  have hix := hinv.manager.sound.indexed
  refine ⟨fun c hc d hd => hix.linked.unique c hc d hd, fun key c => hix.find_iff,
    fun c hc ho => ?_, fun key t a b hst => hst.order_le h, fun view lane key o t hf => ?_,
    fun l hl ho key slot ownerId revision order e t u hn hi ht => ?_⟩
  · obtain ⟨j, hj, hd⟩ := hix.names c hc ho
    exact ⟨j, hj, hd.slot, hd.kept, hd.id, hd.revision, hd.session⟩
  · have hwp := wp_finish_invariant hinv.manager view lane
    unfold wp at hwp
    rw [hf] at hwp
    exact hwp.2.2.2 key
  · refine publishSession_threw ?_ ?_ ht
    · rw [hn]
      exact hinv.manager.size.ne'
    · rw [hn, hi]
      exact hinv.manager.insertCell hl ho key

theorem finds_finished_session : ∃ s c, ManagerSystem.Reached s ∧
    (s.rm.sessionIndex c).state = .occupied ∧ (s.rm.sessionIndex c).publicationOrder = 2 ∧
    findSessionCell s.rm.catalogCount s.rm.sessionIndex [7] = some c := by
  have hrun : (trace ManagerSystem.run ManagerSystem.May
      (wholeRequest (some [7]) 1 0 ++ wholeRequest (some [7]) 2 1) (oneLane 2)).map (fun s =>
        (s.rm.catalogCount, (s.rm.sessionIndex 0).state, (s.rm.sessionIndex 0).key,
          (s.rm.sessionIndex 0).publicationOrder)) = some (2, .occupied, [7], 2) := by
    decide +kernel
  obtain ⟨s, hreach, he⟩ := Reach.of_trace_map (oneLane_init 2 (by simp)) hrun
  simp only [Prod.mk.injEq] at he
  obtain ⟨hn, hst, hkey, hord⟩ := he
  exact ⟨s, 0, hreach, hst, hord,
    ((session_index_correct s hreach).2.1 [7] 0).mpr ⟨by omega, hst, hkey⟩⟩

end Ninfer.Resources
