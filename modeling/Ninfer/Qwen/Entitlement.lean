/-
  The planned entitlement covers every mapping of a request.

  Two facts carry the runs. The pages an address space has mapped and those it has reserved add
  up to the planned entitlement, whatever was mapped, trimmed or handed on (`Lane.Covered`). And
  a decoding lane's frontier and the tokens its budget has left add up to the context that was
  reserved (`Lane.Paced`), so a round that reaches no further than its licensed budget reaches
  no further than the plan. The draft context of a masked backend is never more than one round
  behind.
-/
import Ninfer.Lib.Fallible
import Ninfer.Qwen.RoundCoverage

namespace Ninfer.Qwen

open Lib Function KVCoverage
open KVAddressSpaceStore (pagesForTokens)

variable {c : SequencePlan}

theorem pagesForTokens_mono {m n : Nat} (h : m ≤ n) : pagesForTokens m ≤ pagesForTokens n := by
  simp only [pagesForTokens, pagedKVPageSize]
  split <;> split <;> omega

theorem pagesForTokens_pos {n : Nat} (h : 0 < n) : 0 < pagesForTokens n := by
  simp only [pagesForTokens, pagedKVPageSize]
  split <;> omega

/-! ## The plan -/

namespace RequestBasePlan

variable (p : RequestBasePlan c)

theorem prompt_le_reserved : p.promptTokens ≤ p.reservedContextTokens := by
  unfold reservedContextTokens
  omega

theorem reserved_le : p.reservedContextTokens ≤ c.capacity := by
  have hprompt := p.prompt_le
  have houtput := p.output_le
  unfold reservedContextTokens
  split <;> omega

/-- The context reserved for the backend, in tokens. -/
def backendContextTokens : Nat :=
  match c.speculativeBackend with
  | .mtp => min c.capacity (p.reservedContextTokens + c.draftWindow - 1)
  | .dflash => p.reservedContextTokens
  | _ => 0

theorem backendKvPageEntitlement_eq :
    p.backendKvPageEntitlement = pagesForTokens p.backendContextTokens := by
  unfold backendKvPageEntitlement backendContextTokens
  cases c.speculativeBackend <;> rfl

theorem backendContext_le : p.backendContextTokens ≤ c.capacity := by
  have hreserved := p.reserved_le
  unfold backendContextTokens
  split <;> omega

/-- Where there is a backend cache, it is planned at least as far as the text. -/
theorem reserved_le_backendContext (h : c.backendKvCache) :
    p.reservedContextTokens ≤ p.backendContextTokens := by
  have hreserved := p.reserved_le
  unfold backendContextTokens
  rcases h with h | h
  · have hw := c.window_pos (by rw [h]; decide)
    rw [h]
    simp only
    omega
  · rw [h]

/-- A length within the reserved context is planned for the backend, where there is one. -/
theorem backendLength_le {n : Nat} (h : n ≤ p.reservedContextTokens) :
    (if c.backendKvCache then n else 0) ≤ p.backendContextTokens := by
  split
  next hcache => exact Nat.le_trans h (p.reserved_le_backendContext hcache)
  next => exact Nat.zero_le _

theorem backendContext_eq_zero (h : ¬ c.backendKvCache) : p.backendContextTokens = 0 := by
  unfold SequencePlan.backendKvCache at h
  unfold backendContextTokens
  cases hb : c.speculativeBackend <;> simp_all

theorem backendKvPageEntitlement_eq_zero_iff :
    p.backendKvPageEntitlement = 0 ↔ ¬ c.backendKvCache := by
  rw [backendKvPageEntitlement_eq]
  constructor
  · intro hzero hcache
    have hprompt := p.prompt_pos
    have hle := p.prompt_le_reserved
    have hback := p.reserved_le_backendContext hcache
    have := pagesForTokens_pos (n := p.backendContextTokens) (by omega)
    omega
  · intro hcache
    rw [p.backendContext_eq_zero hcache]
    rfl

theorem textEntitlement_le : p.textKvPageEntitlement ≤ pagesForTokens c.capacity :=
  pagesForTokens_mono p.reserved_le

theorem backendEntitlement_le : p.backendKvPageEntitlement ≤ pagesForTokens c.capacity := by
  rw [backendKvPageEntitlement_eq]
  exact pagesForTokens_mono p.backendContext_le

theorem backendMaterialized_le : p.backendMaterialized ≤ p.backendContextTokens := by
  have hreserved := p.prompt_le_reserved
  have hprompt := p.prompt_le
  have hcapacity := c.capacity_le
  have hwindow := c.window_le
  unfold backendMaterialized backendContextTokens
  cases hb : c.speculativeBackend with
  | none => exact Nat.le_refl 0
  | dflash2 => exact Nat.le_refl 0
  | dflash => exact hreserved
  | mtp =>
    have hextent : p.initialMtpExtent ≤ c.draftWindow := by
      unfold initialMtpExtent
      split <;> omega
    have hpos := c.window_pos (by rw [hb]; decide)
    simp only [add32]
    split <;> omega

end RequestBasePlan

/-- The mapping asks for no more than the plan's entitlement, nor than the context has tokens,
    and it is served. -/
structure Mapping.Within (m : Mapping c) : Prop where
  text_capacity : m.textTokens ≤ c.capacity
  backend_capacity : m.backendTokens ≤ c.capacity
  text : pagesForTokens m.textTokens ≤ m.plan.textKvPageEntitlement
  backend : pagesForTokens m.backendTokens ≤ m.plan.backendKvPageEntitlement
  served : m.refusal = none

theorem Mapping.Within.of_le {p : RequestBasePlan c} {text backend : Nat}
    (htext : text ≤ p.reservedContextTokens) (hbackend : backend ≤ p.backendContextTokens) :
    Mapping.Within ⟨p, text, backend, none⟩ where
  text_capacity := Nat.le_trans htext p.reserved_le
  backend_capacity := Nat.le_trans hbackend p.backendContext_le
  text := pagesForTokens_mono htext
  backend := p.backendKvPageEntitlement_eq ▸ pagesForTokens_mono hbackend
  served := rfl

/-! ## Coverage -/

namespace KVCoverage

variable {k : KVCoverage} {frontier capacity entitled : Nat}

/-- What fits the entitlement is mapped, and the entitlement stays. -/
theorem ensureMappedToTokens_ok {tokens : Nat} (h : pagesForTokens tokens ≤ k.entitlement) :
    ∃ k', k.ensureMappedToTokens tokens = .ok k' ∧ k'.entitlement = k.entitlement := by
  unfold ensureMappedToTokens
  rw [if_neg (by omega)]
  split
  · exact ⟨k, rfl, rfl⟩
  · refine ⟨_, rfl, ?_⟩
    unfold entitlement at *
    simp only
    omega

theorem entitlement_destructiveTruncate :
    (k.destructiveTruncate frontier).entitlement = k.entitlement := by
  unfold destructiveTruncate entitlement
  simp only
  omega

theorem activate_ok (h : pagesForTokens frontier ≤ entitled) (hcap : entitled ≤ capacity) :
    ∃ k, activate capacity frontier entitled = .ok k ∧ k.entitlement = entitled := by
  unfold activate
  rw [if_neg (by omega)]
  refine ⟨_, rfl, ?_⟩
  unfold entitlement
  simp only
  omega

theorem resizeEntitlement_ok (h : k.entitlement = entitled) (hcap : entitled ≤ capacity) :
    ∃ k', k.resizeEntitlement capacity entitled = .ok k' ∧ k'.entitlement = k.entitlement := by
  unfold entitlement at h
  unfold resizeEntitlement
  rw [if_neg (by omega)]
  refine ⟨_, rfl, ?_⟩
  unfold entitlement
  simp only
  omega

theorem ensures_activeSnapshot : Ensures (k.activeSnapshot frontier) fun k' => k' = k := by
  exact .ite (fun _ => .error _) fun _ => .ite (fun _ => .error _) fun _ => .ok rfl

variable {f : KVCoverage → Except Fault KVCoverage}

/-- A backend call that is served where there is a backend. -/
theorem onBackend_ok {o : Option KVCoverage}
    (h : ∀ k, o = some k → ∃ k', f k = .ok k' ∧ k'.entitlement = k.entitlement) :
    ∃ o', onBackend f o = .ok o' ∧ o'.map entitlement = o.map entitlement := by
  cases o with
  | none => exact ⟨none, rfl, rfl⟩
  | some k =>
    obtain ⟨k', hf, hk⟩ := h k rfl
    refine ⟨some k', ?_, congrArg some hk⟩
    simp only [onBackend, hf]
    rfl

theorem ensures_onBackend {o : Option KVCoverage}
    (h : ∀ k, o = some k → Ensures (f k) fun k' => k'.entitlement = k.entitlement) :
    Ensures (onBackend f o) fun o' => o'.map entitlement = o.map entitlement := by
  cases o with
  | none => exact .ok rfl
  | some k => exact .bind (h k rfl) fun k' hk' => .pure (congrArg some hk')

end KVCoverage

namespace Lane

/-- Mapped and reserved pages are the planned entitlement. -/
structure Covered (l : Lane c) : Prop where
  text : l.text.entitlement = l.plan.textKvPageEntitlement
  backend : l.backend.map entitlement =
    if c.backendKvCache then some l.plan.backendKvPageEntitlement else none

/-- The same lane, its address spaces apart. -/
def Remapped (l l' : Lane c) : Prop :=
  ∃ text backend, l' = { l with text, backend }

variable {l l' : Lane c} {main backend start count : Nat}

theorem Remapped.refl : Remapped l l := ⟨l.text, l.backend, rfl⟩

section

variable (h : l.Covered)

include h

theorem Covered.of_backend {text : KVCoverage} {o : Option KVCoverage}
    (htext : text.entitlement = l.text.entitlement)
    (ho : o.map entitlement = l.backend.map entitlement) :
    Covered { l with text, backend := o } := ⟨htext.trans h.text, ho.trans h.backend⟩

theorem Covered.backend_eq {k : KVCoverage} (hk : l.backend = some k) :
    c.backendKvCache ∧ k.entitlement = l.plan.backendKvPageEntitlement := by
  have hback := h.backend
  rw [hk] at hback
  split at hback
  next hcache => exact ⟨hcache, Option.some.inj hback⟩
  next => cases hback

theorem Covered.backend_ne_none (hcache : c.backendKvCache) : l.backend ≠ none := by
  intro hnone
  have hback := h.backend
  rw [hnone, if_pos hcache] at hback
  cases hback

/-- A mapping within the planned context is served, and the lane stays covered. -/
theorem Covered.ensureSequenceKvMapped (hmain : main ≤ l.plan.reservedContextTokens)
    (hbackend : backend ≤ l.plan.backendContextTokens) :
    ∃ l', l.ensureSequenceKvMapped main backend = .ok l' ∧ Remapped l l' ∧ l'.Covered := by
  have hcapacity : ¬ (main > c.capacity ∨ backend > c.capacity) := by
    have := l.plan.reserved_le
    have := l.plan.backendContext_le
    omega
  have hpresent : ¬ (backend ≠ 0 ∧ l.backend = none) := by
    rintro ⟨hne, hnone⟩
    refine h.backend_ne_none ?_ hnone
    by_contra hcache
    rw [l.plan.backendContext_eq_zero hcache] at hbackend
    omega
  obtain ⟨text, htext, hsame⟩ := ensureMappedToTokens_ok (k := l.text)
    (show pagesForTokens main ≤ l.text.entitlement from h.text ▸ pagesForTokens_mono hmain)
  obtain ⟨o, ho, hsame'⟩ := onBackend_ok (o := l.backend)
    (f := (·.ensureMappedToTokens backend)) fun k hk => ensureMappedToTokens_ok (by
      rw [(h.backend_eq hk).2, l.plan.backendKvPageEntitlement_eq]
      exact pagesForTokens_mono hbackend)
  unfold Lane.ensureSequenceKvMapped
  rw [if_neg hcapacity, if_neg hpresent, htext]
  by_cases hzero : backend = 0
  · refine ⟨_, ?_, ⟨text, l.backend, rfl⟩, h.of_backend hsame rfl⟩
    simp only [bind, Except.bind, if_pos hzero]
    rfl
  · refine ⟨_, ?_, ⟨text, o, rfl⟩, h.of_backend hsame hsame'⟩
    simp only [bind, Except.bind, if_neg hzero, ho]
    rfl

/-- A context append within the planned context is served, and the lane stays covered. -/
theorem Covered.appendContext (hcount : 0 < count)
    (hwidth : count ≤ c.draftWindow + 1) (hend : start + count ≤ l.plan.reservedContextTokens) :
    ∃ l', l.appendContext start count = .ok l' ∧ Remapped l l' ∧ l'.Covered := by
  have hcapacity := l.plan.reserved_le
  obtain ⟨o, ho, hsame⟩ := onBackend_ok (o := l.backend)
    (f := (·.ensureMappedToTokens (start + count)))
    fun k hk => ensureMappedToTokens_ok (by
      obtain ⟨hcache, hke⟩ := h.backend_eq hk
      have hle := l.plan.reserved_le_backendContext hcache
      rw [hke, l.plan.backendKvPageEntitlement_eq]
      exact pagesForTokens_mono (by omega))
  refine ⟨_, ?_, ⟨l.text, o, rfl⟩, h.of_backend rfl hsame⟩
  unfold Lane.appendContext
  rw [if_neg (by omega), if_neg (by omega), ho]
  rfl

theorem Covered.trim : (l.trimSequenceKv main backend).Covered := by
  refine h.of_backend entitlement_destructiveTruncate ?_
  cases l.backend with
  | none => rfl
  | some k => exact congrArg some entitlement_destructiveTruncate

end

theorem remapped_trim : Remapped l (l.trimSequenceKv main backend) := ⟨_, _, rfl⟩

theorem Remapped.trans {l'' : Lane c} (h : Remapped l l') (h' : Remapped l' l'') :
    Remapped l l'' := by
  obtain ⟨_, _, rfl⟩ := h
  obtain ⟨text, backend, rfl⟩ := h'
  exact ⟨text, backend, rfl⟩

/-- Resizing a covered bundle to its planned entitlements succeeds and changes nothing. -/
theorem Covered.resize (h : l.Covered) :
    ∃ l', l.resizeSequenceKvEntitlement = .ok l' ∧ Remapped l l' ∧ l'.Covered := by
  obtain ⟨text, htext, hsame⟩ := resizeEntitlement_ok h.text l.plan.textEntitlement_le
  obtain ⟨o, ho, hsame'⟩ := onBackend_ok (o := l.backend) fun k hk =>
    resizeEntitlement_ok (h.backend_eq hk).2 l.plan.backendEntitlement_le
  refine ⟨_, ?_, ⟨text, o, rfl⟩, h.of_backend hsame hsame'⟩
  unfold resizeSequenceKvEntitlement
  simp only [htext, ho, bind, Except.bind]
  rfl

theorem ensures_snapshot (h : l.Covered) :
    Ensures l.snapshot fun l' => Remapped l l' ∧ l'.Covered := by
  refine .bind ensures_activeSnapshot fun text htext => ?_
  refine .bind (ensures_onBackend fun k _ => ?_) fun o ho =>
    .pure ⟨⟨text, o, rfl⟩, h.of_backend (congrArg _ htext) ho⟩
  exact ensures_activeSnapshot.mono fun k' hk' => congrArg _ hk'

/-! ## Pace -/

/-- The frontier and the tokens the budget has left are the reserved context. -/
def Budgeted (l : Lane c) : Prop :=
  l.executionFrontier + l.budget = l.plan.reservedContextTokens

/-- The draft context of a masked backend is at most one round behind the frontier. -/
def Followed (l : Lane c) : Prop :=
  isMaskedDraftBackend c.speculativeBackend → l.dflashContextFrontier ≤ l.executionFrontier ∧
    l.executionFrontier ≤ l.dflashContextFrontier + (c.draftWindow + 1)

/-- The pace of a lane with a pending candidate, by the candidate's kind. -/
def PacedPending (l : Lane c) (p : PendingCandidate) : PendingKind → Prop
  | .begin => l.budget = l.plan.effectiveOutputTokens ∧ p.promptTokens = l.plan.promptTokens ∧
      p.produced = 1 ∧ l.dflashContextFrontier = l.plan.promptTokens
  | .ordinary => l.Budgeted ∧ p.baseE = l.executionFrontier ∧ p.produced = 1 ∧
      l.dflashContextFrontier = l.executionFrontier + 1
  | .speculative => l.Budgeted ∧ p.baseE = l.executionFrontier ∧
      (isMaskedDraftBackend c.speculativeBackend → p.produced ≤ c.draftWindow + 1)

/-- A lane keeps pace with its plan: before the first token the budget is whole, and from then
    on the frontier moves as the budget is spent. -/
def Paced (l : Lane c) : Prop :=
  match l.lifecycle with
  | .prefilling => l.budget = l.plan.effectiveOutputTokens
  | .pending p => l.PacedPending p p.kind
  | .active => l.Budgeted ∧ l.Followed
  | .finishable => True

theorem Paced.remapped (h : l.Paced) (hr : Remapped l l') : l'.Paced := by
  obtain ⟨_, _, rfl⟩ := hr
  exact h

theorem Paced.active (h : l.Paced) (hl : l.lifecycle = .active) : l.Budgeted ∧ l.Followed := by
  unfold Paced at h
  rwa [hl] at h

theorem paced_of_active (hl : l.lifecycle = .active) (hb : l.Budgeted) (hf : l.Followed) :
    l.Paced := by
  unfold Paced
  rw [hl]
  exact ⟨hb, hf⟩

theorem paced_of_prefilling (hl : l.lifecycle = .prefilling)
    (hb : l.budget = l.plan.effectiveOutputTokens) : l.Paced := by
  unfold Paced
  rwa [hl]

theorem paced_of_finishable (hl : l.lifecycle = .finishable) : l.Paced := by
  unfold Paced
  rw [hl]
  trivial

structure Ok (l : Lane c) : Prop where
  covered : l.Covered
  paced : l.Paced

theorem Ok.trim (h : l.Ok) : (l.trimSequenceKv main backend).Ok :=
  ⟨h.covered.trim, h.paced.remapped remapped_trim⟩

/-- Touching the staged prefill alone changes neither coverage nor pace. -/
theorem Ok.withPrefill (h : l.Ok) (p : Option Prefill) : Ok { l with prefill := p } :=
  ⟨⟨h.covered.text, h.covered.backend⟩, h.paced⟩

end Lane

/-! ## The invariant of the runs -/

namespace Program

structure Invariant (s : Program c) : Prop where
  lanes : ∀ i l, s.lanes i = some l → l.Ok
  mappings : ∀ m ∈ s.mappings, m.Within

variable {s : Program c} {i main backend start count : Nat} {l : Lane c}

theorem Invariant.set (h : Invariant s) {o : Option (Lane c)} (ho : ∀ l, o = some l → l.Ok) :
    Invariant { s with lanes := update s.lanes i o } where
  lanes := by
    intro j l hl
    by_cases hj : j = i
    · subst hj
      exact ho l (by simpa using hl)
    · exact h.lanes j l (by simpa [update_of_ne hj] using hl)
  mappings := h.mappings

theorem Invariant.set_some (h : Invariant s) (hl : l.Ok) :
    Invariant { s with lanes := update s.lanes i (some l) } :=
  h.set fun _ heq => Option.some.inj heq ▸ hl

theorem Invariant.clear (h : Invariant s) : Invariant { s with lanes := update s.lanes i none } :=
  h.set fun _ heq => nomatch heq

theorem checks_lane (s : Program c) (i : Nat) : Checks (lane i) s fun l => s.lanes i = some l := by
  refine .get_bind ?_
  cases hl : s.lanes i with
  | none => exact .raise _
  | some l => exact .pure rfl

/-- Reading a lane that is there. -/
theorem wp_lane_bind {α : Type} {P : Post (Program c) α} {f : Lane c → Eff (Program c) α}
    (hl : s.lanes i = some l) (h : wp (f l) P s) : wp (lane i >>= f) P s := by
  unfold lane
  simp only [wp_bind, wp_get, hl, wp_pure]
  exact h

variable {P : Post (Program c) Unit} {l' : Lane c} {t : Program c}

theorem wp_clearLanes {is : List Nat} (hs : Invariant s) (h : ∀ t, Invariant t → P.ok () t) :
    wp (clearLanes is) P s := by
  unfold clearLanes
  induction is generalizing s with
  | nil => exact h s hs
  | cons i is ih =>
    exact ih hs.clear

/-- A batch whose failure clears its lanes keeps the invariant when its body does. -/
theorem wp_onThrow_clear {m : Eff (Program c) Unit} {is : List Nat}
    (h : wp m (keeps Invariant) s) : wp (Eff.onThrow m (clearLanes is)) (keeps Invariant) s := by
  rw [wp_onThrow]
  exact wp_mono h (fun _ _ ht => ht) (fun e t ht => wp_clearLanes ht fun _ hu => hu) id

/-- Between `s` and `t` at most the lane `i` changed. -/
def OnlyLane (i : Nat) (s t : Program c) : Prop := ∀ j, j ≠ i → t.lanes j = s.lanes j

theorem OnlyLane.refl : OnlyLane i s s := fun _ _ => rfl

theorem OnlyLane.of_update {o : Option (Lane c)} (h : t.lanes = update s.lanes i o) :
    OnlyLane i s t := fun j hj => by
  rw [h, update_of_ne hj]

theorem OnlyLane.trans {u : Program c} (h : OnlyLane i s t) (h' : OnlyLane i t u) :
    OnlyLane i s u := fun j hj => (h' j hj).trans (h j hj)

/-- A mapping call that is served: the log grows by one, the lane is remapped. -/
theorem wp_mapping {f : Lane c → Except Fault (Lane c)} (hs : Invariant s)
    (hl : s.lanes i = some l) (hf : f l = .ok l') (hr : Lane.Remapped l l') (hc : l'.Covered)
    (hw : Mapping.Within ⟨l.plan, main, backend, none⟩)
    (h : ∀ t, Invariant t → OnlyLane i s t → t.lanes i = some l' → P.ok () t) :
    wp (mapping i main backend f) P s := by
  refine wp_lane_bind hl ?_
  rw [hf]
  refine h _ ⟨?_, ?_⟩ (.of_update rfl) (update_self ..)
  · exact (hs.set_some ⟨hc, (hs.lanes i l hl).paced.remapped hr⟩).lanes
  · intro m hm
    rcases List.mem_cons.mp hm with rfl | hm
    · exact hw
    · exact hs.mappings m hm

theorem wp_mapLane (hs : Invariant s) (hl : s.lanes i = some l)
    (hmain : main ≤ l.plan.reservedContextTokens)
    (hbackend : backend ≤ l.plan.backendContextTokens)
    (h : ∀ t l', Invariant t → Lane.Remapped l l' → OnlyLane i s t → t.lanes i = some l' →
      P.ok () t) : wp (mapLane i main backend) P s := by
  obtain ⟨l', hl', hr, hc⟩ := (hs.lanes i l hl).covered.ensureSequenceKvMapped hmain hbackend
  exact wp_mapping hs hl hl' hr hc (.of_le hmain hbackend) fun t ht => h t l' ht hr

theorem wp_appendLane (hs : Invariant s) (hl : s.lanes i = some l) (hcount : 0 < count)
    (hwidth : count ≤ c.draftWindow + 1) (hend : start + count ≤ l.plan.reservedContextTokens)
    (h : ∀ t l', Invariant t → Lane.Remapped l l' → OnlyLane i s t → t.lanes i = some l' →
      P.ok () t) : wp (appendLane i start count) P s := by
  obtain ⟨l', hl', hr, hc⟩ := (hs.lanes i l hl).covered.appendContext hcount hwidth hend
  exact wp_mapping hs hl hl' hr hc (.of_le (Nat.zero_le _) (l.plan.backendLength_le hend))
    fun t ht => h t l' ht hr

/-! ## Loops over the rows of a batch -/

/-- The post of a row's step: at most the lane `i` changed, and `T` holds of it. -/
abbrev onLane (i : Nat) (t : Program c) (T : Option (Lane c) → Prop) : Post (Program c) Unit :=
  ⟨fun _ u => Invariant u ∧ OnlyLane i t u ∧ T (u.lanes i), fun _ => Invariant, True⟩

/-- The invariant, rows of distinct lanes, and what each row's lane satisfies. -/
structure Rows {β : Type} (key : β → Nat) (R : β → Option (Lane c) → Prop) (rows : List β)
    (s : Program c) : Prop where
  inv : Invariant s
  nodup : (rows.map key).Nodup
  holds : ∀ r ∈ rows, R r (s.lanes (key r))

/-- The rule for loops over rows: a body that takes its own lane from `R` to `T` and leaves the
    other lanes alone takes all of them. -/
theorem wp_forRows {β : Type} {key : β → Nat} {R T : β → Option (Lane c) → Prop} {rows : List β}
    {body : β → Eff (Program c) Unit} (hs : Rows key R rows s)
    (h : ∀ r ∈ rows, ∀ t, Invariant t → R r (t.lanes (key r)) →
      wp (body r) (onLane (key r) t (T r)) t) :
    wp (Eff.forEach rows body) ⟨fun _ u => Rows key T rows u, fun _ => Invariant, True⟩ s := by
  -- The induction also keeps the lanes of no row as they were.
  suffices hkey : wp (Eff.forEach rows body) ⟨fun _ u => Rows key T rows u ∧
      ∀ j, j ∉ rows.map key → u.lanes j = s.lanes j, fun _ => Invariant, True⟩ s from
    wp_imp hkey (fun _ _ hu => hu.1)
  induction rows generalizing s with
  | nil => exact ⟨⟨hs.inv, hs.nodup, by simp⟩, fun _ _ => rfl⟩
  | cons r rows ih =>
    have hnotin : key r ∉ rows.map key := (List.nodup_cons.mp hs.nodup).1
    have hnodup : (rows.map key).Nodup := (List.nodup_cons.mp hs.nodup).2
    rw [wp_forEach_cons]
    refine wp_imp (h r (List.mem_cons_self ..) s hs.inv (hs.holds r (List.mem_cons_self ..))) ?_
    rintro _ t ⟨htinv, honly, hr⟩
    have htail : Rows key R rows t := by
      refine ⟨htinv, hnodup, fun q hq => ?_⟩
      have hne : key q ≠ key r := fun heq => hnotin (heq ▸ List.mem_map_of_mem hq)
      rw [honly _ hne]
      exact hs.holds q (List.mem_cons_of_mem _ hq)
    refine wp_imp (ih htail fun q hq => h q (List.mem_cons_of_mem _ hq)) ?_
    rintro _ u ⟨hu, hrest⟩
    refine ⟨⟨hu.inv, hs.nodup, fun q hq => ?_⟩, fun j hj => ?_⟩
    · rcases List.mem_cons.mp hq with rfl | hq
      · rw [hrest _ hnotin]
        exact hr
      · exact hu.holds q hq
    · rw [List.map_cons, List.mem_cons, not_or] at hj
      rw [hrest j hj.2, honly j hj.1]

/-- The last loop over the rows of a batch: nothing is left to know of them. -/
theorem keeps_forRows {β : Type} {key : β → Nat} {R : β → Option (Lane c) → Prop} {rows : List β}
    {body : β → Eff (Program c) Unit} (hs : Rows key R rows s)
    (h : ∀ r ∈ rows, ∀ t, Invariant t → R r (t.lanes (key r)) →
      wp (body r) (onLane (key r) t fun _ => True) t) :
    wp (Eff.forEach rows body) (keeps Invariant) s :=
  wp_imp (wp_forRows (T := fun _ _ => True) hs h) (fun _ _ hu => hu.inv)

/-! ## Start and prefill -/

/-- A prefix of the prompt is activated with the planned entitlements. -/
theorem activateBundle_ok (plan : RequestBasePlan c) {base : Nat}
    (hbase : base ≤ plan.promptTokens) :
    ∃ text back, activateBundle plan base = .ok (text, back) ∧
      text.entitlement = plan.textKvPageEntitlement ∧
      back.map entitlement =
        if c.backendKvCache then some plan.backendKvPageEntitlement else none := by
  have hreserved := plan.prompt_le_reserved
  obtain ⟨text, htext, hsame⟩ := activate_ok
    (show pagesForTokens base ≤ plan.textKvPageEntitlement from
      pagesForTokens_mono (Nat.le_trans hbase hreserved)) plan.textEntitlement_le
  unfold activateBundle
  by_cases hcache : c.backendKvCache
  · have hne : plan.backendKvPageEntitlement ≠ 0 := fun hzero =>
      plan.backendKvPageEntitlement_eq_zero_iff.mp hzero hcache
    have hle := plan.reserved_le_backendContext hcache
    have hfits : pagesForTokens (if c.speculativeBackend = .mtp then base - 1 else base) ≤
        plan.backendKvPageEntitlement := by
      rw [plan.backendKvPageEntitlement_eq]
      refine pagesForTokens_mono ?_
      split <;> omega
    obtain ⟨back, hback, hsame'⟩ := activate_ok hfits plan.backendEntitlement_le
    refine ⟨text, some back, ?_, hsame, ?_⟩
    · simp only [htext, hback, if_neg hne, bind, Except.bind]
      rfl
    · rw [if_pos hcache]
      exact congrArg some hsame'
  · refine ⟨text, none, ?_, hsame, by rw [if_neg hcache]; rfl⟩
    have hzero := plan.backendKvPageEntitlement_eq_zero_iff.mpr hcache
    simp only [htext, hzero, if_true, bind, Except.bind]
    rfl

theorem settleSource_ok (mode : SourceMode) (base : Nat) (h : l.Covered) :
    ∃ l', settleSource mode base l = .ok l' ∧ Lane.Remapped l l' ∧ l'.Covered := by
  cases mode with
  | root => exact ⟨_, rfl, Lane.remapped_trim, h.trim⟩
  | retain => exact ⟨_, rfl, .refl, h⟩
  | consumeToActive =>
    have htrim : (l.trimSequenceKv base l.backendKvValid).Covered := h.trim
    obtain ⟨l', hl', hr, hc⟩ := htrim.resize
    refine ⟨l'.trimSequenceKv base l.backendKvValid, ?_,
      (Lane.remapped_trim.trans hr).trans Lane.remapped_trim, hc.trim⟩
    unfold settleSource
    simp only [hl', bind, Except.bind]
    rfl

theorem promptTokens_of_plan {prompt requested : Nat} {plan : RequestBasePlan c}
    (h : planRequest c prompt requested = .ok plan) : plan.promptTokens = prompt := by
  unfold planRequest at h
  split at h
  · cases h
  · split at h
    · cases h
    · cases h
      rfl

/-- A planned request starts: its prompt is mapped. -/
theorem wp_start {a : Admission} {plan : RequestBasePlan c} (hs : Invariant s)
    (hplan : planRequest c a.promptTokens a.requestedOutputTokens = .ok plan)
    (hbase : a.base ≤ a.promptTokens) :
    wp (Program.start i a) ⟨fun _ => Invariant, fun _ _ => False, False⟩ s := by
  obtain ⟨text, back, hbundle, htext, hback⟩ := activateBundle_ok plan
    (Nat.le_trans hbase (promptTokens_of_plan hplan).ge)
  refine wp_answer_ok_bind hplan (wp_answer_ok_bind hbundle ?_)
  obtain ⟨l, hl, hr, hc⟩ := settleSource_ok a.mode a.base
    (l := .resumed plan a text back) ⟨htext, hback⟩
  refine wp_answer_ok_bind hl ?_
  have hok : l.Ok := ⟨hc, Lane.Paced.remapped (by exact rfl) hr⟩
  have hlplan : l.plan = plan := by
    obtain ⟨_, _, rfl⟩ := hr
    rfl
  refine wp_seq (R := fun _ t => Invariant t ∧ t.lanes i = some l)
    (⟨hs.set_some hok, update_self ..⟩) ?_
  rintro _ t ⟨ht, hlane⟩
  rw [wp_onThrow]
  refine wp_mapLane ht hlane ?_ ?_ fun u _ hu _ _ _ => hu
  · rw [hlplan]
    exact plan.prompt_le_reserved
  · rw [hlplan]
    exact plan.backendMaterialized_le

theorem keeps_start {a : Admission} (hs : Invariant s) (hbase : a.base ≤ a.promptTokens) :
    wp (Program.start i a) (keeps Invariant) s := by
  cases hplan : planRequest c a.promptTokens a.requestedOutputTokens with
  | ok plan =>
    exact wp_mono (wp_start hs hplan hbase) (fun _ _ ht => ht) (fun _ _ hf => hf.elim) False.elim
  | error e =>
    unfold Program.start
    rw [hplan, wp_bind, wp_answer]
    exact ⟨fun _ h => (nomatch h), fun _ _ => hs⟩

theorem keeps_advancePrefill {processed : Nat} {capture : Bool} (hs : Invariant s) :
    wp (advancePrefill i processed capture) (keeps Invariant) s := by
  refine (checks_lane s i).wp_bind (fun _ => hs) fun l hl => ?_
  have hok := hs.lanes i l hl
  cases hlife : l.lifecycle with
  | prefilling =>
    have hbudget : l.budget = l.plan.effectiveOutputTokens := by
      have := hok.paced
      unfold Lane.Paced at this
      rwa [hlife] at this
    have hbegun : ∀ {m : Lane c} {keep : Bool}, m.plan = l.plan → m.budget = l.budget →
        m.Covered → (m.begun keep).Ok := by
      intro m keep hplan hb hc
      refine ⟨⟨hc.text, hc.backend⟩, ?_⟩
      exact ⟨hb.trans (hbudget.trans (congrArg _ hplan.symm)), rfl, rfl, rfl⟩
    have hadvanced : ∀ {p : Prefill} {n : Nat} {keep : Bool}, (l.advanced p n keep).Ok :=
      ⟨⟨hok.covered.text, hok.covered.backend⟩, Lane.paced_of_prefilling hlife hbudget⟩
    cases hpre : l.prefill with
    | none => exact hs
    | some p =>
      simp only [wp_ite]
      refine ⟨fun _ => hs, fun _ => ⟨fun _ => hs, fun _ => ⟨fun _ => ?_, fun _ => ⟨fun _ => ?_,
        fun _ => ⟨fun _ => hs, fun _ => ⟨fun _ => ?_, fun _ => ?_⟩⟩⟩⟩⟩⟩
      · exact hs.set_some ⟨⟨hok.covered.text, hok.covered.backend⟩,
          Lane.paced_of_prefilling rfl hbudget⟩
      · exact hs.set_some (hbegun rfl rfl hok.covered)
      · exact hs.set_some hadvanced
      · exact hs.set_some (hbegun rfl rfl hadvanced.covered)
  | active => exact hs
  | pending _ => exact hs
  | finishable => exact hs

/-! ## Captures -/

theorem keeps_prepareCapture {publishShared : Bool} (hs : Invariant s) :
    wp (prepareCapture i publishShared) (keeps Invariant) s := by
  refine (checks_lane s i).wp_bind (fun _ => hs) fun l hl => ?_
  have hok := hs.lanes i l hl
  cases l.prefill with
  | none => exact hs
  | some p =>
    simp only [wp_ite]
    refine ⟨fun _ => hs, fun _ => hs.set_some (Lane.Ok.withPrefill ?_ _)⟩
    split
    · exact hok.trim
    · exact hok

theorem keeps_publishCapture (hs : Invariant s) : wp (publishCapture i) (keeps Invariant) s := by
  refine (checks_lane s i).wp_bind (fun _ => hs) fun l hl => ?_
  have hok := hs.lanes i l hl
  cases l.prefill with
  | none => exact hs
  | some p =>
    simp only
    split
    next =>
      refine (Checks.answer _).wp_bind (fun _ => hs) fun m hm => ?_
      obtain ⟨hr, hc⟩ := Lane.ensures_snapshot hok.covered m hm
      have hplan : m.plan = l.plan := by
        obtain ⟨_, _, rfl⟩ := hr
        rfl
      refine wp_seq (R := fun _ t => Invariant t ∧ t.lanes i = some m)
        (⟨hs.set_some ⟨hc, hok.paced.remapped hr⟩, update_self ..⟩) ?_
      rintro _ t ⟨ht, hlane⟩
      rw [wp_bind, ← hplan]
      refine wp_mapLane ht hlane m.plan.prompt_le_reserved m.plan.backendMaterialized_le ?_
      intro u m' hu _ _ _
      refine (checks_lane u i).wp_bind (fun _ => hu) fun n hn => ?_
      exact hu.set_some ((hu.lanes i n hn).withPrefill _)
    next => exact hs.set_some (hok.withPrefill _)
    next => exact hs

theorem keeps_dropCapture (hs : Invariant s) : wp (dropCapture i) (keeps Invariant) s := by
  refine (checks_lane s i).wp_bind (fun _ => hs) fun l hl => ?_
  cases l.prefill with
  | none => exact hs
  | some p => exact hs.set_some ((hs.lanes i l hl).withPrefill _)

/-! ## Decode rounds -/

/-- The lane of a row that decodes: active, at its budget's pace, with as many tokens left as
    the row is licensed. -/
structure Decoding (row : Row) (l : Lane c) : Prop where
  ok : l.Ok
  active : l.lifecycle = .active
  positive : 0 < row.budget
  licensed : row.budget ≤ l.budget

variable {row : Row} {rows : List Row}

theorem Decoding.budgeted (h : Decoding row l) : l.Budgeted := (h.ok.paced.active h.active).1

/-- A reach of at most the licensed budget stays within the plan. -/
theorem Decoding.reach (h : Decoding row l) {n : Nat} (hn : n ≤ row.budget) :
    l.executionFrontier + n ≤ l.plan.reservedContextTokens := by
  have hbudget := h.budgeted
  have hlicensed := h.licensed
  unfold Lane.Budgeted at hbudget
  omega

theorem Decoding.remapped (h : Decoding row l) (hr : Lane.Remapped l l') (hok : l'.Ok) :
    Decoding row l' := by
  obtain ⟨_, _, rfl⟩ := hr
  exact ⟨hok, h.active, h.positive, h.licensed⟩

theorem maxByBudget_lt {b : Nat} (h : 0 < b) : maxByBudget b + 1 ≤ b := by
  unfold maxByBudget
  split <;> omega

/-- So does a round that verifies at most the budget's share of drafts. -/
theorem Decoding.reach_drafts (h : Decoding row l) {n : Nat} (hn : n ≤ maxByBudget row.budget) :
    l.executionFrontier + (n + 1) ≤ l.plan.reservedContextTokens :=
  h.reach (Nat.le_trans (Nat.succ_le_succ hn) (maxByBudget_lt h.positive))

/-- The predicate of a batch: every row's lane is there and decodes. -/
def DecodingRow (row : Row) (o : Option (Lane c)) : Prop := ∃ l, o = some l ∧ Decoding row l

/-- The checks a round makes on its rows, on a state the Engine licensed them in. -/
theorem rows_of_checks (hs : Invariant s)
    (hnodup : (rows.map (·.lane)).Nodup) (hmay : ∀ row ∈ rows, s.licensed row.lane row.budget)
    (hready : ∀ row ∈ rows, ∃ l, s.lanes row.lane = some l ∧ decodeReady l row.budget) :
    Rows (·.lane) DecodingRow rows s := by
  refine ⟨hs, hnodup, fun row hrow => ?_⟩
  obtain ⟨l, hl, hr⟩ := hready row hrow
  exact ⟨l, hl, hs.lanes _ l hl, hr.1, Nat.pos_of_ne_zero hr.2.1, hmay row hrow l hl⟩

section

variable (ht : Invariant t)

include ht

/-- A mapping within the plan keeps a row decoding. -/
theorem wp_mapRow (hl : t.lanes row.lane = some l)
    (hd : Decoding row l) (hmain : main ≤ l.plan.reservedContextTokens)
    (hbackend : backend ≤ l.plan.backendContextTokens) :
    wp (mapLane row.lane main backend) (onLane row.lane t (DecodingRow row)) t := by
  exact wp_mapLane ht hl hmain hbackend fun u l' hu hr honly hl' =>
    ⟨hu, honly, l', hl', hd.remapped hr (hu.lanes _ l' hl')⟩

theorem wp_mapOrdinary (h : DecodingRow row (t.lanes row.lane)) :
    wp (mapOrdinary row) (onLane row.lane t (DecodingRow row)) t := by
  obtain ⟨l, hl, hd⟩ := h
  have hreach := hd.reach hd.positive
  exact wp_lane_bind hl (wp_mapRow ht hl hd hreach (l.plan.backendLength_le hreach))

/-- What a context append of everything pending leaves: the draft context at the frontier. -/
theorem wp_appendPending (hl : t.lanes i = some l)
    (hactive : l.lifecycle = .active) (hmask : isMaskedDraftBackend c.speculativeBackend) :
    wp (appendPending i) (onLane i t fun o => ∃ l', o = some l' ∧ l'.lifecycle = .active ∧
      l'.budget = l.budget) t := by
  obtain ⟨hbudget, hfollow⟩ := (ht.lanes i l hl).paced.active hactive
  have hctx := hfollow hmask
  unfold Lane.Budgeted at hbudget
  refine wp_lane_bind hl ?_
  rw [wp_ite, wp_when, wp_bind]
  refine ⟨fun _ => ht, fun _ => ⟨fun hlt => ?_, fun _ => ⟨ht, .refl, l, hl, hactive, rfl⟩⟩⟩
  refine wp_appendLane ht hl (by omega) (by omega) (by omega) fun u m hu hr honly hm => ?_
  refine wp_lane_bind hm ?_
  obtain ⟨text, back, rfl⟩ := hr
  have hcovered := (hu.lanes i _ hm).covered
  refine ⟨hu.set_some ⟨⟨hcovered.text, hcovered.backend⟩, ?_⟩,
    honly.trans (.of_update rfl), _, update_self .., hactive, rfl⟩
  exact Lane.paced_of_active hactive hbudget fun _ => ⟨Nat.le_refl _, Nat.le_add_right _ _⟩

theorem wp_appendRow (h : DecodingRow row (t.lanes row.lane))
    (hmask : isMaskedDraftBackend c.speculativeBackend) :
    wp (appendPending row.lane) (onLane row.lane t (DecodingRow row)) t := by
  obtain ⟨l, hl, hd⟩ := h
  refine wp_imp (wp_appendPending ht hl hd.active hmask) ?_
  rintro _ u ⟨hu, honly, l', hl', hactive, hbudget⟩
  exact ⟨hu, honly, l', hl', hu.lanes _ l' hl', hactive, hd.positive, hbudget ▸ hd.licensed⟩

/-- A settled row keeps the invariant when the pending candidate keeps pace. -/
theorem settled (hok : l'.Ok) :
    Invariant { t with lanes := update t.lanes i (some l') } ∧
      OnlyLane i t { t with lanes := update t.lanes i (some l') } ∧ True :=
  ⟨ht.set_some hok, .of_update rfl, trivial⟩

theorem wp_settleOrdinary (h : DecodingRow row (t.lanes row.lane)) :
    wp (settleOrdinary row) (onLane row.lane t fun _ => True) t := by
  obtain ⟨l, hl, hd⟩ := h
  refine wp_lane_bind hl (settled ht ⟨⟨hd.ok.covered.text, hd.ok.covered.backend⟩, ?_⟩)
  exact ⟨hd.budgeted, rfl, rfl, rfl⟩

end

/-- The first loop of a round: a check of every row. -/
theorem checks_rows {β : Type} (key : β → Nat) {rs : List β} {Q : β → Lane c → Prop}
    [∀ r l, Decidable (Q r l)] {e : Fault} :
    Checks (Eff.forEach rs fun r => do
      let l ← lane (key r)
      Eff.require (Q r l) e) s fun _ => ∀ r ∈ rs, ∃ l, s.lanes (key r) = some l ∧ Q r l :=
  .forEach fun r _ => (checks_lane s (key r)).bind fun l hl =>
    Checks.require.mono fun _ hr => ⟨l, hl, hr⟩

/-- A round that maps every row within the plan and then settles every row. -/
theorem keeps_round {mapRow settleRow : Row → Eff (Program c) Unit}
    (hs : Rows (·.lane) DecodingRow rows s)
    (hmap : ∀ row t, Invariant t → DecodingRow row (t.lanes row.lane) →
      wp (mapRow row) (onLane row.lane t (DecodingRow row)) t)
    (hsettle : ∀ row t, Invariant t → DecodingRow row (t.lanes row.lane) →
      wp (settleRow row) (onLane row.lane t fun _ => True) t) :
    wp (do
      Eff.forEach rows mapRow
      Eff.forEach rows settleRow) (keeps Invariant) s := by
  rw [wp_bind]
  refine wp_imp (wp_forRows hs fun row _ u hu hd => hmap row u hu hd) ?_
  exact fun _ u hu => keeps_forRows hu fun row _ v hv hd => hsettle row v hv hd

theorem keeps_decodeOrdinary (hs : Invariant s) (hnodup : (rows.map (·.lane)).Nodup)
    (hmay : ∀ row ∈ rows, s.licensed row.lane row.budget) :
    wp (decodeOrdinary rows) (keeps Invariant) s := by
  refine (checks_rows Row.lane (Q := fun row l => decodeReady l row.budget)).wp_bind
    (fun _ => hs) fun _ hready => ?_
  have hrows := rows_of_checks hs hnodup hmay hready
  have hround : ∀ t : Program c, Rows (·.lane) DecodingRow rows t → wp (do
      Eff.forEach rows mapOrdinary
      Eff.forEach rows settleOrdinary) (keeps Invariant) t := fun t ht =>
    keeps_round ht (fun _ _ => wp_mapOrdinary) fun _ _ => wp_settleOrdinary
  rw [wp_bind, wp_when]
  refine ⟨fun hmask => ?_, fun _ => hround s hrows⟩
  exact wp_imp (wp_forRows hrows fun row _ t ht hd => wp_appendRow ht hd hmask)
    (fun _ t ht => hround t ht)

theorem wp_mapMtp {useLookup : Bool} (hmtp : c.speculativeBackend = .mtp) (ht : Invariant t)
    (h : DecodingRow row (t.lanes row.lane)) :
    wp (mapMtp useLookup row) (onLane row.lane t (DecodingRow row)) t := by
  obtain ⟨l, hl, hd⟩ := h
  have hextent : mtpExtent l useLookup row.budget ≤ maxByBudget row.budget := by
    unfold mtpExtent
    split
    · exact Nat.zero_le _
    · split <;> omega
  have hreach := hd.reach_drafts hextent
  have hpos := c.window_pos (by rw [hmtp]; decide)
  have hcapacity := c.capacity_le
  have hreserved := l.plan.reserved_le
  refine wp_lane_bind hl (wp_mapRow ht hl hd hreach ?_)
  unfold RequestBasePlan.backendContextTokens add32
  rw [hmtp]
  simp only
  omega

theorem wp_settleMtp {useLookup : Bool} (hmtp : c.speculativeBackend = .mtp) (ht : Invariant t)
    (h : DecodingRow row (t.lanes row.lane)) :
    wp (settleMtp useLookup row) (onLane row.lane t fun _ => True) t := by
  obtain ⟨l, hl, hd⟩ := h
  refine wp_lane_bind hl ?_
  refine Checks.require.wp_bind (fun _ => ht) fun _ hlicensed =>
    settled ht ⟨⟨hd.ok.covered.text, hd.ok.covered.backend⟩, hd.budgeted, rfl, fun hmask => ?_⟩
  rw [hmtp] at hmask
  exact absurd hmask (by decide)

theorem keeps_decodeMtp (hmtp : c.speculativeBackend = .mtp) (hs : Invariant s)
    (hnodup : (rows.map (·.lane)).Nodup)
    (hmay : ∀ row ∈ rows, s.licensed row.lane row.budget) :
    wp (decodeMtp rows) (keeps Invariant) s := by
  refine (checks_rows Row.lane).wp_bind (fun _ => hs) fun _ hready => ?_
  have hrows := rows_of_checks hs hnodup hmay fun row hrow =>
    (hready row hrow).imp fun l hl => ⟨hl.1, hl.2.1⟩
  refine (Checks.collect (Q := fun _ => True) fun row _ => (checks_lane s row.lane).bind
    fun _ _ => Checks.pure trivial).wp_bind (fun _ => hs) fun wanting _ => ?_
  exact keeps_round hrows (fun _ _ => wp_mapMtp hmtp) fun _ _ => wp_settleMtp hmtp

theorem wp_mapDFlash (ht : Invariant t) (h : DecodingRow row (t.lanes row.lane)) :
    wp (mapDFlash row) (onLane row.lane t (DecodingRow row)) t := by
  obtain ⟨l, hl, hd⟩ := h
  have hextent : dflashExtent l row.budget ≤ maxByBudget row.budget := by
    unfold dflashExtent
    split <;> omega
  have hreach := hd.reach_drafts hextent
  exact wp_lane_bind hl (wp_mapRow ht hl hd hreach (l.plan.backendLength_le (by omega)))

theorem wp_settleDFlash (ht : Invariant t) (h : DecodingRow row (t.lanes row.lane)) :
    wp (settleDFlash row) (onLane row.lane t fun _ => True) t := by
  obtain ⟨l, hl, hd⟩ := h
  refine wp_lane_bind hl ?_
  refine Checks.require.wp_bind (fun _ => ht) fun _ hlicensed =>
    settled ht ⟨⟨hd.ok.covered.text, hd.ok.covered.backend⟩, ?_⟩
  exact ⟨hd.budgeted, rfl, fun _ => hlicensed.2.1⟩

theorem keeps_decodeDFlash (hs : Invariant s) (hnodup : (rows.map (·.lane)).Nodup)
    (hmay : ∀ row ∈ rows, s.licensed row.lane row.budget) :
    wp (decodeDFlash rows) (keeps Invariant) s := by
  refine (checks_rows Row.lane).wp_bind (fun _ => hs) fun _ hready => ?_
  have hrows := rows_of_checks hs hnodup hmay fun row hrow =>
    (hready row hrow).imp fun l hl => ⟨hl.1, hl.2.1⟩
  exact keeps_round hrows (fun _ _ => wp_mapDFlash) fun _ _ => wp_settleDFlash

theorem keeps_decode (hs : Invariant s) (hmay : ∀ row ∈ rows, s.licensed row.lane row.budget) :
    wp (decode rows) (keeps Invariant) s := by
  refine Checks.require.wp_bind (fun _ => hs) fun _ _ => ?_
  refine Checks.require.wp_bind (fun _ => hs) fun _ hnodup => wp_onThrow_clear ?_
  refine (Checks.collect (Q := fun _ => True) fun row _ => (checks_lane s row.lane).bind
    fun _ _ => Checks.pure trivial).wp_bind (fun _ => hs) fun plain _ => ?_
  simp only [wp_ite]
  refine ⟨fun _ => keeps_decodeOrdinary hs hnodup hmay, fun _ => ⟨fun hmtp => ?_, fun _ => ?_⟩⟩
  · exact keeps_decodeMtp hmtp hs hnodup hmay
  · exact keeps_decodeDFlash hs hnodup hmay

/-! ## Commits -/

variable {d : Decision} {ds : List Decision} {kind : PendingKind} {p : PendingCandidate}

/-- The lane of a decided row: pending with a candidate the decision fits. -/
structure Deciding (kind : PendingKind) (d : Decision) (l : Lane c) (p : PendingCandidate) :
    Prop where
  ok : l.Ok
  pending : l.lifecycle = .pending p
  kind_eq : p.kind = kind
  decision : decisionOk d p.produced
  licensed : d.acceptedTokens ≤ l.budget

def DecidingRow (kind : PendingKind) (d : Decision) (o : Option (Lane c)) : Prop :=
  ∃ l p, o = some l ∧ Deciding kind d l p

theorem checks_candidate (s : Program c) (i : Nat) (kind : PendingKind) :
    Checks (candidate i kind) s fun r =>
      s.lanes i = some r.1 ∧ r.1.lifecycle = .pending r.2 ∧ r.2.kind = kind := by
  refine (checks_lane s i).bind fun l hl => ?_
  cases hlife : l.lifecycle with
  | pending p =>
    simp only
    split
    next hkind => exact .pure ⟨hl, hlife, hkind⟩
    next => exact .raise _
  | prefilling => exact .raise _
  | active => exact .raise _
  | finishable => exact .raise _

/-- Reading the candidate of a decided row. -/
theorem wp_candidate_bind {α : Type} {P : Post (Program c) α}
    {f : Lane c × PendingCandidate → Eff (Program c) α} (hl : s.lanes i = some l)
    (hlife : l.lifecycle = .pending p) (hkind : p.kind = kind) (h : wp (f (l, p)) P s) :
    wp (candidate i kind >>= f) P s := by
  rw [wp_bind]
  refine wp_lane_bind hl ?_
  rw [hlife]
  simp only [hkind, if_true]
  exact h

theorem Deciding.accepted (h : Deciding kind d l p) (hc : d.cancelled = false) :
    0 < d.acceptedTokens ∧ d.acceptedTokens ≤ p.produced ∧
      (d.terminal = false → d.acceptedTokens = p.produced) := by
  have hd := h.decision
  unfold decisionOk at hd
  rw [hc] at hd
  exact ⟨Nat.pos_of_ne_zero hd.1, hd.2⟩

theorem Deciding.paced (h : Deciding kind d l p) : l.PacedPending p kind := by
  have hp := h.ok.paced
  unfold Lane.Paced at hp
  rw [h.pending] at hp
  exact h.kind_eq ▸ hp

/-- A committed lane that keeps pace unless it is finished. -/
theorem ok_committed (hcovered : l'.Covered)
    (hlife : l'.lifecycle = if d.terminal then .finishable else .active)
    (hpace : d.terminal = false → l'.Budgeted ∧ l'.Followed) : l'.Ok := by
  refine ⟨hcovered, ?_⟩
  cases hterm : d.terminal with
  | true => exact Lane.paced_of_finishable (by rw [hlife, hterm]; rfl)
  | false =>
    obtain ⟨hb, hf⟩ := hpace hterm
    exact Lane.paced_of_active (by rw [hlife, hterm]; rfl) hb hf

theorem wp_resolveBegin (ht : Invariant t) (hc : d.cancelled = false)
    (h : DecidingRow .begin d (t.lanes d.lane)) :
    wp (resolveBegin d) (onLane d.lane t fun _ => True) t := by
  obtain ⟨l, p, hl, hd⟩ := h
  obtain ⟨hpos, hle, hall⟩ := hd.accepted hc
  obtain ⟨hbudget, hprompt, hone, hctx⟩ := hd.paced
  have hlicensed := hd.licensed
  refine wp_candidate_bind hl hd.pending hd.kind_eq ?_
  refine settled ht (Lane.Ok.trim (ok_committed (d := d)
    ⟨hd.ok.covered.text, hd.ok.covered.backend⟩ rfl fun _ => ⟨?_, fun _ => ?_⟩))
  · -- The sampled token is the first of the budget, and it is not mapped yet.
    show p.promptTokens + (l.budget - d.acceptedTokens) = l.plan.reservedContextTokens
    unfold RequestBasePlan.reservedContextTokens
    rw [hprompt, hbudget, if_neg (by omega)]
    omega
  · show l.dflashContextFrontier ≤ p.promptTokens ∧
      p.promptTokens ≤ l.dflashContextFrontier + (c.draftWindow + 1)
    omega

theorem wp_resolveOrdinary (ht : Invariant t) (hc : d.cancelled = false)
    (h : DecidingRow .ordinary d (t.lanes d.lane)) :
    wp (resolveOrdinary d) (onLane d.lane t fun _ => True) t := by
  obtain ⟨l, p, hl, hd⟩ := h
  obtain ⟨hpos, hle, hall⟩ := hd.accepted hc
  obtain ⟨hbudget, hbase, hone, hctx⟩ := hd.paced
  have hlicensed := hd.licensed
  unfold Lane.Budgeted at hbudget
  refine wp_candidate_bind hl hd.pending hd.kind_eq ?_
  refine settled ht (Lane.Ok.trim (ok_committed (d := d)
    ⟨hd.ok.covered.text, hd.ok.covered.backend⟩ rfl fun _ => ⟨?_, fun _ => ?_⟩))
  · show p.baseE + p.produced + (l.budget - d.acceptedTokens) = l.plan.reservedContextTokens
    omega
  · show l.dflashContextFrontier ≤ p.baseE + p.produced ∧
      p.baseE + p.produced ≤ l.dflashContextFrontier + (c.draftWindow + 1)
    omega

theorem wp_settleSpeculative (ht : Invariant t) (h : DecidingRow .speculative d (t.lanes d.lane)) :
    wp (settleSpeculative d) (onLane d.lane t fun _ => True) t := by
  obtain ⟨l, p, hl, hd⟩ := h
  refine wp_candidate_bind hl hd.pending hd.kind_eq ?_
  rw [wp_ite]
  refine ⟨fun _ => ⟨ht.clear, .of_update rfl, trivial⟩, fun hc => ?_⟩
  obtain ⟨hpos, hle, hall⟩ := hd.accepted (by simpa using hc)
  obtain ⟨hbudget, hbase, hwidth⟩ := hd.paced
  have hlicensed := hd.licensed
  unfold Lane.Budgeted at hbudget
  refine settled ht (Lane.Ok.trim (ok_committed (d := d)
    ⟨hd.ok.covered.text, hd.ok.covered.backend⟩ rfl fun hterm => ⟨?_, fun hmask => ?_⟩))
  · show p.baseE + d.acceptedTokens + (l.budget - d.acceptedTokens) = l.plan.reservedContextTokens
    omega
  · have hproduced := hwidth hmask
    show (if d.terminal then p.baseE + d.acceptedTokens else p.baseE) ≤ p.baseE + d.acceptedTokens ∧
      p.baseE + d.acceptedTokens ≤
        (if d.terminal then p.baseE + d.acceptedTokens else p.baseE) + (c.draftWindow + 1)
    rw [hterm]
    simp only [Bool.false_eq_true, if_false]
    omega

theorem keeps_resolveSpeculative (hs : Rows (·.lane) (DecidingRow .speculative) ds s) :
    wp (resolveSpeculative ds) (keeps Invariant) s := by
  refine (Checks.forEach (K := fun _ => True) fun d _ => (checks_candidate s d.lane _).bind
    fun r _ => Checks.require.mono fun _ _ => trivial).wp_bind (fun _ => hs.inv) fun _ _ => ?_
  have hsettle : ∀ t : Program c, Rows (·.lane) (DecidingRow .speculative) ds t →
      wp (Eff.forEach ds settleSpeculative) (keeps Invariant) t := fun t ht =>
    keeps_forRows ht fun d _ u hu hd => wp_settleSpeculative hu hd
  rw [wp_bind, wp_when]
  refine ⟨fun hmask => ?_, fun _ => hsettle s hs⟩
  refine wp_imp (wp_forRows (T := DecidingRow .speculative) hs fun d _ t ht hd => ?_)
    (fun _ t ht => hsettle t ht)
  rw [wp_when]
  refine ⟨fun hterm => ?_, fun _ => ⟨ht, .refl, hd⟩⟩
  obtain ⟨l, p, hl, hd⟩ := hd
  obtain ⟨hpos, hle, -⟩ := hd.accepted hterm.1
  obtain ⟨hbudget, hbase, hwidth⟩ := hd.paced
  have hproduced := hwidth hmask
  have hlicensed := hd.licensed
  unfold Lane.Budgeted at hbudget
  refine wp_candidate_bind hl hd.pending hd.kind_eq ?_
  refine wp_appendLane ht hl hpos (by omega) (by omega) fun u l' hu hr honly hl' => ?_
  refine ⟨hu, honly, l', p, hl', hu.lanes _ l' hl', ?_, hd.kind_eq, hd.decision, ?_⟩
  · obtain ⟨_, _, rfl⟩ := hr
    exact hd.pending
  · obtain ⟨_, _, rfl⟩ := hr
    exact hd.licensed

/-- Rows that are resolved one by one. -/
theorem keeps_resolveRows {resolve : Decision → Eff (Program c) Unit}
    (hs : Rows (·.lane) (DecidingRow kind) ds s)
    (h : ∀ d t, Invariant t → d.cancelled = false → DecidingRow kind d (t.lanes d.lane) →
      wp (resolve d) (onLane d.lane t fun _ => True) t) :
    wp (Eff.forEach ds (resolveRow resolve)) (keeps Invariant) s := by
  refine keeps_forRows hs fun d _ t ht hd => ?_
  unfold resolveRow
  rw [wp_ite]
  exact ⟨fun _ => ⟨ht.clear, .of_update rfl, trivial⟩, fun hc => h d t ht (by simpa using hc) hd⟩

theorem keeps_commit (hs : Invariant s) (hmay : ∀ d ∈ ds, s.licensed d.lane d.acceptedTokens) :
    wp (commit ds kind) (keeps Invariant) s := by
  refine Checks.require.wp_bind (fun _ => hs) fun _ hshape => wp_onThrow_clear ?_
  refine (Checks.forEach (K := fun d => ∃ l p, s.lanes d.lane = some l ∧
    l.lifecycle = .pending p ∧ p.kind = kind ∧ decisionOk d p.produced) fun d _ =>
      (checks_candidate s d.lane kind).bind fun r hr => Checks.require.mono fun _ hd =>
        ⟨r.1, r.2, hr.1, hr.2.1, hr.2.2, hd⟩).wp_bind (fun _ => hs) fun _ hall => ?_
  have hrows : Rows (·.lane) (DecidingRow kind) ds s := by
    refine ⟨hs, hshape.2, fun d hd => ?_⟩
    obtain ⟨l, p, hl, hlife, hkind, hdec⟩ := hall d hd
    exact ⟨l, p, hl, hs.lanes _ l hl, hlife, hkind, hdec, hmay d hd l hl⟩
  cases kind with
  | begin => exact keeps_resolveRows hrows fun _ _ => wp_resolveBegin
  | ordinary => exact keeps_resolveRows hrows fun _ _ => wp_resolveOrdinary
  | speculative => exact keeps_resolveSpeculative hrows

/-! ## Forced spans -/

/-- The lane of a forced row. -/
structure Forcing (count : Nat) (l : Lane c) : Prop where
  ok : l.Ok
  active : l.lifecycle = .active
  licensed : count ≤ l.budget

theorem wp_forceRow (ht : Invariant t) (h : ∃ l, t.lanes i = some l ∧ Forcing count l) :
    wp (forceRow count i) (onLane i t fun _ => True) t := by
  obtain ⟨l, hl, hf⟩ := h
  unfold forceRow
  rw [wp_bind, wp_when]
  have hmapped : ∀ (u : Program c) (l : Lane c), Invariant u → OnlyLane i t u → u.lanes i = some l →
      l.lifecycle = .active → count ≤ l.budget → wp (do
        let l ← lane i
        mapLane i (l.executionFrontier + count)
          (if c.backendKvCache then l.executionFrontier + count else 0)
        let mapped ← lane i
        let forced := mapped.forced count
        setLane i (some (forced.trimSequenceKv forced.textKvValid forced.backendKvValid)))
        (onLane i t fun _ => True) u := by
    intro u l hu honly hl hactive hle
    have hbudget := ((hu.lanes i l hl).paced.active hactive).1
    unfold Lane.Budgeted at hbudget
    refine wp_lane_bind hl ?_
    rw [wp_bind]
    refine wp_mapLane hu hl (by omega) (l.plan.backendLength_le (by omega))
      fun v l' hv hr honly' hl' => ?_
    have hcovered := (hv.lanes i l' hl').covered
    refine wp_lane_bind hl' ?_
    refine ⟨hv.set_some (Lane.Ok.trim ⟨⟨hcovered.text, hcovered.backend⟩, ?_⟩),
      (honly.trans honly').trans (.of_update rfl), trivial⟩
    obtain ⟨text, back, rfl⟩ := hr
    refine Lane.paced_of_active hactive ?_ fun _ => ⟨Nat.le_refl _, Nat.le_add_right _ _⟩
    show l.executionFrontier + count + (l.budget - count) = l.plan.reservedContextTokens
    omega
  refine ⟨fun hmask => ?_, fun _ => hmapped t l ht .refl hl hf.active hf.licensed⟩
  refine wp_imp (wp_appendPending ht hl hf.active hmask) ?_
  rintro _ u ⟨hu, honly, l', hl', hactive, hbudget⟩
  exact hmapped u l' hu honly hl' hactive (hbudget ▸ hf.licensed)

theorem keeps_appendForcedTokens {members : List Nat} (hs : Invariant s)
    (hmay : ∀ i ∈ members, s.licensed i count) :
    wp (appendForcedTokens members count) (keeps Invariant) s := by
  refine Checks.require.wp_bind (fun _ => hs) fun _ _ => ?_
  refine Checks.require.wp_bind (fun _ => hs) fun _ hnodup => ?_
  refine (checks_rows id (Q := fun _ l => forcedReady l count)).wp_bind
    (fun _ => hs) fun _ hready => wp_onThrow_clear ?_
  have hrows : Rows id (fun _ o => ∃ l, o = some l ∧ Forcing count l) members s := by
    refine ⟨hs, by simpa using hnodup, fun i hi => ?_⟩
    obtain ⟨l, hl, hr⟩ := hready i hi
    exact ⟨l, hl, hs.lanes _ l hl, hr.1, hmay i hi l hl⟩
  exact keeps_forRows hrows fun i _ t ht hf => wp_forceRow ht hf

/-! ## Every run -/

theorem keeps_run (k : Command) (hs : Invariant s) (hmay : May k s) :
    wp (run k) (keeps Invariant) s := by
  cases k with
  | start i a => exact keeps_start hs hmay.2
  | advancePrefill i processed capture => exact keeps_advancePrefill hs
  | prepareCapture i publishShared => exact keeps_prepareCapture hs
  | publishCapture i => exact keeps_publishCapture hs
  | dropCapture i => exact keeps_dropCapture hs
  | decode rows => exact keeps_decode hs hmay
  | commit ds kind => exact keeps_commit hs hmay
  | appendForcedTokens members count => exact keeps_appendForcedTokens hs hmay
  | release i => exact hs.clear

theorem reached_invariant (h : Reached s) : Invariant s := by
  refine Reach.inv (I := Invariant) h ?_ fun k _ => keeps_run k
  rintro _ rfl
  exact ⟨fun _ _ hl => (nomatch hl), by simp⟩

/-- In every run, each mapping a request asks for stays within the page entitlements of its base
    plan and within the context, and is served; and a request that was planned can be started on
    any free lane from any prefix of its prompt. -/
theorem mappings_within_entitlement (h : Reached s) : (∀ m ∈ s.mappings, m.Within) ∧
    ∀ i a plan, May (.start i a) s →
      planRequest c a.promptTokens a.requestedOutputTokens = .ok plan →
      ∃ t, run (.start i a) s = .ok () t := by
  have hs := reached_invariant h
  refine ⟨hs.mappings, fun i a plan hmay hplan => ?_⟩
  obtain ⟨_, t, ht, -⟩ := wp_returns (wp_start hs hplan hmay.2)
  exact ⟨t, ht⟩

/-- A target with MTP drafts of three tokens and a context of 200. -/
def mtpTarget : SequencePlan where
  capacity := 200
  speculativeBackend := .mtp
  draftWindow := 3
  prefillChunk := 128
  maxConcurrency := 2
  capacity_le := by decide
  window_le := by decide
  window_pos := by decide

/-- A prompt of 60 tokens with 10 to generate: two speculative rounds, a forced span of three
    tokens and the last ordinary round, which maps the last token of the plan. -/
theorem mtpTarget_served : ∃ s : Program mtpTarget, Reached s ∧
    s.mappings.map (fun m => (m.textTokens, m.backendTokens)) =
      [(69, 69), (68, 68), (68, 70), (64, 66), (60, 62)] ∧ ∀ m ∈ s.mappings, m.Within := by
  have hrun : (trace run May [.start 0 ⟨60, 10, .root, 0, false, false⟩, .advancePrefill 0 60 false,
      .commit [⟨0, 1, false, false⟩] .begin, .decode [⟨0, 9, false, 4, 3⟩],
      .commit [⟨0, 4, false, false⟩] .speculative, .decode [⟨0, 5, false, 1, 3⟩],
      .commit [⟨0, 1, false, false⟩] .speculative, .appendForcedTokens [0] 3,
      .decode [⟨0, 1, false, 1, 0⟩], .commit [⟨0, 1, true, false⟩] .ordinary, .release 0]
      ({ lanes := fun _ => none, mappings := [] } : Program mtpTarget)).map
        (fun s => s.mappings.map fun m => (m.textTokens, m.backendTokens)) =
      some [(69, 69), (68, 68), (68, 70), (64, 66), (60, 62)] := by
    decide +kernel
  obtain ⟨s, hs, hm⟩ := Option.map_eq_some_iff.mp hrun
  have hreach : Reached s := .of_trace (.start rfl) hs
  exact ⟨s, hreach, hm, (mappings_within_entitlement hreach).1⟩

end Program

end Ninfer.Qwen
