/-
  Every byte of the caller that a fragment holds lies in one of its literal spans.

  `Safe` says this of a fragment. It holds of the empty fragment, and each operation of the
  builder and each slice keeps it, so it holds of the rendered conversation.
-/
import Ninfer.Frontend.ChatTemplate

namespace Ninfer.Frontend

open Lib

/-! ## Spans that cover the caller's bytes -/

def Covers (spans : List ByteSpan) (i : Nat) : Prop := ∃ s ∈ spans, s.begin ≤ i ∧ i < s.stop

def Forward (spans : List ByteSpan) : Prop := ∀ s ∈ spans, s.begin ≤ s.stop

/-- No byte of the text was written by the caller. -/
def NoUser (text : Text) : Prop := ∀ g ∈ text, g.origin ≠ .user

theorem noUser_written {o : Origin} (ho : o ≠ .user) (b : Bytes) : NoUser (written o b) := by
  intro g hg
  obtain ⟨byte, -, rfl⟩ := List.mem_map.mp hg
  exact ho

theorem noUser_template (s : String) : NoUser (template s) := noUser_written (by decide) _

theorem noUser_media (b : Bytes) : NoUser (media b) := noUser_written (by decide) _

theorem noUser_nil : NoUser [] := by
  intro g hg
  cases hg

structure Literal (text : Text) (spans : List ByteSpan) : Prop where
  forward : Forward spans
  covered : ∀ i g, text[i]? = some g → g.origin = .user → Covers spans i

abbrev Safe (f : RenderedFragment) : Prop := Literal f.text f.literalSpans

theorem safe_empty : Safe .empty := by
  refine ⟨fun s hs => ?_, fun i g hg => ?_⟩
  · cases hs
  · simp [RenderedFragment.empty] at hg

variable {spans start : List ByteSpan} {f : RenderedFragment}

theorem Covers.mono {more : List ByteSpan} {i : Nat} (h : Covers spans i)
    (hsub : ∀ s ∈ spans, s ∈ more) : Covers more i := by
  obtain ⟨s, hs, hi⟩ := h
  exact ⟨s, hsub s hs, hi⟩

/-- The spans after one more was appended cover what they covered and the new one. -/
theorem appendLiteralSpan_ensures {span : ByteSpan} (hf : Forward spans)
    (hspan : span.begin ≤ span.stop) :
    Ensures (appendLiteralSpan spans span) fun spans' => Forward spans' ∧
      ∀ i, (Covers spans i ∨ (span.begin ≤ i ∧ i < span.stop)) → Covers spans' i := by
  refine .ite (fun hempty => .ok ⟨hf, ?_⟩) fun _ => ?_
  · rintro i (h | h)
    · exact h
    · omega
  cases hlast : spans.getLast? with
  | none =>
    obtain rfl := List.getLast?_eq_none_iff.mp hlast
    refine .ok ⟨by simpa [Forward] using hspan, ?_⟩
    rintro i (⟨s, hs, -⟩ | h)
    · cases hs
    · exact ⟨span, by simp, h⟩
  | some back =>
    have hsplit : spans = spans.dropLast ++ [back] :=
      (List.dropLast_append_getLast? back hlast).symm
    have hback : back.begin ≤ back.stop := hf back (List.mem_of_getLast? hlast)
    refine .ite (fun hat => .ok ?_) fun _ =>
      .ite (fun _ => .error _) fun _ => .ok ?_
    · -- the last span grows over the new one
      refine ⟨forall_mem_push (fun s hs => hf s ((List.dropLast_sublist _).subset hs)) ?_, ?_⟩
      · exact Nat.le_trans (Nat.le_trans hback (Nat.le_of_eq hat)) hspan
      · rintro i (⟨s, hs, hi⟩ | hi)
        · rw [hsplit] at hs
          rcases List.mem_append.mp hs with hs | hs
          · exact ⟨s, List.mem_append_left _ hs, hi⟩
          · obtain rfl := List.mem_singleton.mp hs
            exact ⟨_, List.mem_append_right _ (List.mem_singleton_self _), hi.1, by
              show i < span.stop
              omega⟩
        · exact ⟨_, List.mem_append_right _ (List.mem_singleton_self _), by
            show back.begin ≤ i
            omega, hi.2⟩
    · refine ⟨forall_mem_push hf hspan, ?_⟩
      rintro i (h | hi)
      · exact h.mono fun s hs => List.mem_append_left _ hs
      · exact ⟨span, List.mem_append_right _ (List.mem_singleton_self _), hi⟩

/-- Spans appended one after the other, each moved by `place`. -/
theorem foldlM_spans_ensures {place : ByteSpan → ByteSpan} (hf : Forward start)
    (hplace : ∀ s ∈ spans, (place s).begin ≤ (place s).stop) :
    Ensures (spans.foldlM (fun acc s => appendLiteralSpan acc (place s)) start) fun spans' =>
      Forward spans' ∧ ∀ i, (Covers start i ∨ Covers (spans.map place) i) → Covers spans' i := by
  induction spans generalizing start with
  | nil =>
    refine .pure ⟨hf, ?_⟩
    rintro i (h | ⟨s, hs, -⟩)
    · exact h
    · cases hs
  | cons s spans ih =>
    refine .bind (appendLiteralSpan_ensures hf (hplace s (List.mem_cons_self ..)))
      fun acc hacc => ?_
    refine (ih hacc.1 fun x hx => hplace x (List.mem_cons_of_mem _ hx)).mono fun spans' h => ?_
    refine ⟨h.1, ?_⟩
    rintro i (hi | ⟨x, hx, hi⟩)
    · exact h.2 i (.inl (hacc.2 i (.inl hi)))
    · rcases List.mem_cons.mp hx with rfl | hx
      · exact h.2 i (.inl (hacc.2 i (.inr hi)))
      · exact h.2 i (.inr ⟨x, hx, hi⟩)

/-- The caller's bytes of a text with something after it. -/
theorem Literal.of_append {text more : Text} (hf : Forward spans)
    (hleft : ∀ i g, text[i]? = some g → g.origin = .user → Covers spans i)
    (hright : ∀ i g, more[i]? = some g → g.origin = .user → Covers spans (text.length + i)) :
    Literal (text ++ more) spans := by
  refine ⟨hf, fun i g hg ho => ?_⟩
  by_cases hi : i < text.length
  · rw [List.getElem?_append_left hi] at hg
    exact hleft i g hg ho
  · rw [List.getElem?_append_right (by omega)] at hg
    have := hright _ g hg ho
    rwa [Nat.add_sub_cancel' (by omega)] at this

theorem NoUser.not_user {text : Text} (h : NoUser text) {i : Nat} {g : Glyph}
    (hg : text[i]? = some g) (ho : g.origin = .user) {p : Prop} : p :=
  absurd ho (h g (List.mem_of_getElem? hg))

/-! ## The builder and the slices -/

namespace Safe

variable {b : RenderBuilder}

theorem appendTemplate (h : Safe b) {text : Text} (ht : NoUser text) :
    Safe (b.appendTemplate text) :=
  Literal.of_append h.forward h.covered fun _ _ hg ho => ht.not_user hg ho

theorem appendMediaPlaceholder (h : Safe b) {text : Text} (ht : NoUser text)
    (modality : Modality) (itemIndex : Nat) :
    Safe (b.appendMediaPlaceholder text modality itemIndex) :=
  Literal.of_append h.forward h.covered fun _ _ hg ho => ht.not_user hg ho

theorem appendLiteral (h : Safe b) (text : Text) : Ensures (b.appendLiteral text) Safe := by
  refine .bind (appendLiteralSpan_ensures h.forward (Nat.le_add_right _ _)) fun spans hs => .pure ?_
  refine Literal.of_append hs.1 (fun i g hg ho => hs.2 i (.inl (h.covered i g hg ho)))
    fun i g hg _ => hs.2 _ (.inr ⟨Nat.le_add_right _ _, ?_⟩)
  have := (List.getElem?_eq_some_iff.mp hg).1
  show b.text.length + i < b.text.length + text.length
  omega

theorem append (h : Safe b) {f : RenderedFragment} (hf : Safe f) : Ensures (b.append f) Safe := by
  have hplace : ∀ s ∈ f.literalSpans,
      (s.shift b.text.length).begin ≤ (s.shift b.text.length).stop := fun s hs =>
    Nat.add_le_add_left (hf.forward s hs) _
  refine .bind (foldlM_spans_ensures h.forward hplace) fun spans hs => .pure ?_
  refine Literal.of_append hs.1 (fun i g hg ho => hs.2 i (.inl (h.covered i g hg ho)))
    fun i g hg ho => hs.2 _ (.inr ?_)
  obtain ⟨s, hmem, hi⟩ := hf.covered i g hg ho
  exact ⟨s.shift b.text.length, List.mem_map_of_mem hmem, Nat.add_le_add_left hi.1 _,
    Nat.add_lt_add_left hi.2 _⟩

end Safe

theorem safe_literalFragment (text : Text) : Ensures (literalFragment text) Safe :=
  safe_empty.appendLiteral text

/-- The clipped spans of a slice. -/
theorem foldlM_sliceSpan_ensures {begin stop : Nat} (hf : Forward start) :
    Ensures (spans.foldlM (sliceSpan begin stop) start) fun spans' => Forward spans' ∧
      ∀ i, (Covers start i ∨ (Covers spans (begin + i) ∧ begin + i < stop)) → Covers spans' i := by
  induction spans generalizing start with
  | nil =>
    refine .pure ⟨hf, ?_⟩
    rintro i (h | ⟨⟨s, hs, -⟩, -⟩)
    · exact h
    · cases hs
  | cons s spans ih =>
    have hstep : Ensures (sliceSpan begin stop start s) fun acc => Forward acc ∧
        ∀ i, (Covers start i ∨ (s.begin ≤ begin + i ∧ begin + i < s.stop ∧ begin + i < stop)) →
          Covers acc i := by
      refine .ite (fun hlt => ?_) fun hge => .ok ⟨hf, ?_⟩
      · refine (appendLiteralSpan_ensures hf (show _ - _ ≤ _ - _ by omega)).mono fun acc hacc => ?_
        refine ⟨hacc.1, ?_⟩
        rintro i (h | h)
        · exact hacc.2 i (.inl h)
        · refine hacc.2 i (.inr ⟨?_, ?_⟩)
          · show max s.begin begin - begin ≤ i
            omega
          · show i < min s.stop stop - begin
            omega
      · rintro i (h | h)
        · exact h
        · omega
    refine .bind hstep fun acc hacc => (ih hacc.1).mono fun spans' h => ⟨h.1, ?_⟩
    rintro i (hi | ⟨⟨x, hx, hi⟩, hstop⟩)
    · exact h.2 i (.inl (hacc.2 i (.inl hi)))
    · rcases List.mem_cons.mp hx with rfl | hx
      · exact h.2 i (.inl (hacc.2 i (.inr ⟨hi.1, hi.2, hstop⟩)))
      · exact h.2 i (.inr ⟨⟨x, hx, hi⟩, hstop⟩)

theorem safe_sliceFragment (h : Safe f) (begin stop : Nat) :
    Ensures (sliceFragment f begin stop) Safe := by
  refine .ite (fun _ => .error _) fun _ => ?_
  refine .bind (foldlM_sliceSpan_ensures fun s hs => by cases hs) fun spans hs => ?_
  refine .skip fun placeholders => .pure ⟨hs.1, fun i g hg ho => ?_⟩
  have hi : i < stop - begin := by
    have := (List.getElem?_eq_some_iff.mp hg).1
    rw [List.length_take] at this
    omega
  rw [List.getElem?_take_of_lt hi, List.getElem?_drop] at hg
  exact hs.2 i (.inr ⟨h.covered _ g hg ho, by omega⟩)

theorem safe_trimAsciiWhitespace (h : Safe f) : Ensures (trimAsciiWhitespace f) Safe :=
  safe_sliceFragment h _ _

theorem safe_deriveThinkParts (h : Safe f) :
    Ensures (deriveThinkParts f) fun parts => Safe parts.reasoning ∧ Safe parts.content := by
  unfold deriveThinkParts
  cases find f.text thinkClose with
  | none => exact .ok ⟨safe_empty, h⟩
  | some firstClose =>
    refine .bind (safe_sliceFragment h _ _) fun reasoning hr => ?_
    exact .bind (safe_sliceFragment h _ _) fun content hc => .pure ⟨hr, hc⟩

/-! ## The conversation -/

section Rendering

variable (lib : JsonLibrary)

theorem safe_renderParameter {b : RenderBuilder} (h : Safe b) (member : Bytes × Json) :
    Ensures (renderParameter lib b member) Safe := by
  refine .bind ((h.appendTemplate (noUser_template _)).appendLiteral _) fun b hb => ?_
  refine .skip fun value => ?_
  refine .bind ((hb.appendTemplate (noUser_template _)).appendLiteral _) fun b hb => ?_
  exact .pure (hb.appendTemplate (noUser_template _))

theorem safe_renderToolCall (call : ToolCall) (allowEmptyArguments : Bool) :
    Ensures (renderToolCall lib call allowEmptyArguments) Safe := by
  have hopen := safe_empty.appendTemplate (noUser_template "<tool_call>\n<function=")
  refine .ite (fun _ => ?_) fun _ => .skip fun args => ?_
  · exact .bind (hopen.appendLiteral _) fun b hb =>
      .pure (hb.appendTemplate (noUser_template _))
  · cases args with
    | object members =>
      refine .bind (hopen.appendLiteral _) fun b hb => ?_
      refine .bind (.foldlM (fun b member _ hb => safe_renderParameter lib hb member)
        (hb.appendTemplate (noUser_template _))) fun b hb => ?_
      exact .pure (hb.appendTemplate (noUser_template _))
    | array _ => exact .error _
    | string _ => exact .error _
    | other _ => exact .error _

theorem safe_renderTool {s : RenderBuilder × List Nat} (h : Safe s.1) (tool : Bytes) :
    Ensures (renderTool lib s tool) fun s' => Safe s'.1 := by
  refine .skip fun document => ?_
  refine .skip fun text => ?_
  exact .bind ((h.appendTemplate (noUser_template _)).appendLiteral _) fun b hb =>
    .pure hb

theorem safe_renderToolsSystemBlock {toolJsons : List Bytes} {leading : RenderedFragment}
    {reasoning : Text} (hl : Safe leading) (hr : NoUser reasoning) :
    Ensures (renderToolsSystemBlock lib toolJsons leading reasoning) fun out =>
      Safe out.fragment := by
  have hopen : Safe (if reasoning = [] then
      RenderBuilder.appendTemplate .empty (template "<|im_start|>system\n")
      else ((RenderBuilder.appendTemplate .empty (template "<|im_start|>system\n")).appendTemplate
        reasoning).appendTemplate (template "\n\n")) := by
    have h := safe_empty.appendTemplate (noUser_template "<|im_start|>system\n")
    split
    · exact h
    · exact (h.appendTemplate hr).appendTemplate (noUser_template _)
  refine .bind (.foldlM (fun s tool _ hs => safe_renderTool lib hs tool)
    (hopen.appendTemplate (noUser_template _))) fun s hs => ?_
  have hb := (hs.appendTemplate (noUser_template "\n</tools>")).appendTemplate
    (noUser_template toolInstructions)
  refine .ite (fun _ => .pure (hb.appendTemplate (noUser_template _))) fun _ => ?_
  exact .bind ((hb.appendTemplate (noUser_template _)).append hl) fun b hb =>
    .pure (hb.appendTemplate (noUser_template _))

variable (semantics : ChatTemplateSemantics)

theorem noUser_resolveReasoningInstructions (options : ChatRenderOptions) :
    Ensures (resolveReasoningInstructions semantics options) NoUser := by
  cases semantics with
  | thinkingToggle =>
    exact .ite (fun _ => .error _) fun _ => .ok noUser_nil
  | reasoningEffort =>
    refine .ite (fun _ => .ite (fun _ => .error _) fun _ =>
      .ok noUser_nil) fun _ => ?_
    cases options.reasoningEffort.getD .xhigh with
    | low => exact .ok (noUser_template _)
    | medium => exact .ok noUser_nil
    | xhigh => exact .ok (noUser_template _)

theorem safe_renderPart (addVisionId : Bool) {c : ChatMessage.Content} (h : Safe c.out)
    (part : ChatPart) : Ensures (ChatMessage.renderPart addVisionId c part) fun c' =>
      Safe c'.out := by
  have hid : ∀ label : Text, NoUser label →
      Safe (if addVisionId then c.out.appendTemplate label else c.out) := by
    intro label hlabel
    split
    · exact h.appendTemplate hlabel
    · exact h
  cases part with
  | text value => exact .bind (h.appendLiteral _) fun out hout => .pure hout
  | image =>
    exact .ok ((((hid _ (noUser_template _)).appendTemplate
      (noUser_template _)).appendMediaPlaceholder (noUser_template _) _ _).appendTemplate
      (noUser_template _))
  | video =>
    exact .ok ((((hid _ (noUser_template _)).appendTemplate
      (noUser_template _)).appendMediaPlaceholder (noUser_template _) _ _).appendTemplate
      (noUser_template _))

theorem safe_renderedContent (m : ChatMessage) (addVisionId : Bool) (images videos media : Nat) :
    Ensures (m.renderedContent addVisionId images videos media) fun c => Safe c.out :=
  .foldlM (fun _ part _ hc => safe_renderPart addVisionId hc part) safe_empty

/-! Of the variables of `render` only the builder matters. -/

namespace Rendering

variable {s : Rendering}

theorem safe_appendTemplate (h : Safe s.rendered) (text : String) :
    Safe (s.appendTemplate text).rendered :=
  h.appendTemplate (noUser_template text)

theorem safe_append (h : Safe s.rendered) {f : RenderedFragment} (hf : Safe f) :
    Ensures (s.append f) fun s' => Safe s'.rendered :=
  .bind (h.append hf) fun _ hb => .pure hb

@[simp] theorem rendered_addRewriteExecutionBoundary :
    s.addRewriteExecutionBoundary.rendered = s.rendered := by
  unfold addRewriteExecutionBoundary
  split <;> rfl

@[simp] theorem rendered_closeMessage (index : Nat) :
    (s.closeMessage index).rendered = s.rendered := rfl

/-- The boundaries noted before the content do not matter. -/
theorem safe_appendContent (h : Safe s.rendered) {f : RenderedFragment} (hf : Safe f)
    (markers : List PromptCacheMarker) (m : MessageContent) :
    Ensures ((s.resolvePartBoundaries markers m).append f) fun s' => Safe s'.rendered :=
  safe_append (s := s.resolvePartBoundaries markers m) h hf

/-- A constant and the note of a rewrite boundary after it. -/
theorem safe_appendBoundary (h : Safe s.rendered) (text : String) :
    Safe (s.appendTemplate text).addRewriteExecutionBoundary.rendered := by
  rw [rendered_addRewriteExecutionBoundary]
  exact safe_appendTemplate h text

end Rendering

namespace RenderContext

open Rendering

variable {c : RenderContext} {m : MessageContent} {s : Rendering}

theorem safe_renderPlain (opener : String) (hm : Safe m.content) (h : Safe s.rendered) :
    Ensures (c.renderPlain opener m s) fun s' => Safe s'.rendered :=
  .bind (safe_appendContent (safe_appendTemplate h opener) hm _ _) fun _ hs =>
    .pure (safe_appendTemplate hs _)

theorem safe_renderToolResponse (hm : Safe m.content) (h : Safe s.rendered) :
    Ensures (c.renderToolResponse m s) fun s' => Safe s'.rendered := by
  have hopen : ∀ p : Prop, ∀ _ : Decidable p,
      Safe (if p then s.appendTemplate "<|im_start|>user" else s).rendered := by
    intro p _
    split
    · exact safe_appendTemplate h _
    · exact h
  refine .bind (safe_appendContent (safe_appendTemplate (hopen _ _) _) hm _ _) fun s hs => .pure ?_
  split
  · exact safe_appendTemplate (safe_appendTemplate hs _) _
  · exact safe_appendTemplate hs _

theorem safe_renderContinuation (hm : Safe m.content) (h : Safe s.rendered) :
    Ensures (renderContinuation m s) fun s' => Safe s'.rendered :=
  .bind (safe_append (safe_appendBoundary (s := s.checkpoint .responseReplay) h _) hm)
    fun _ hs => .pure hs

theorem safe_renderCalls (bodyHasText : Bool) {calls : List ToolCall} {first : Bool}
    (h : Safe s.rendered) :
    Ensures (c.renderCalls lib bodyHasText calls first s) fun s' => Safe s'.rendered := by
  induction calls generalizing first s with
  | nil => exact .ok h
  | cons call rest ih =>
    have hsep : Safe (if first then (if bodyHasText then s.appendTemplate "\n\n" else s)
        else s.appendTemplate "\n").rendered := by
      split
      · split
        · exact safe_appendTemplate h _
        · exact h
      · exact safe_appendTemplate h _
    refine .bind (safe_renderToolCall lib call _) fun fragment hf => ?_
    exact .bind (safe_append hsep hf) fun s hs => ih hs

theorem safe_splitAssistant (message : ChatMessage) {content : RenderedFragment}
    (h : Safe content) : Ensures (c.splitAssistant message content) fun parts =>
      Safe parts.reasoning ∧ Safe parts.content := by
  refine .ite (fun _ => ?_) fun _ =>
    .ite (fun _ => .ok ⟨safe_empty, h⟩) fun _ => safe_deriveThinkParts h
  exact .bind (safe_literalFragment _) fun r hr => .pure ⟨hr, h⟩

theorem safe_renderThinking (keepThinking : Bool) {reasoning : RenderedFragment}
    (hr : Safe reasoning) (h : Safe s.rendered) :
    Ensures (renderThinking keepThinking reasoning s) fun s' => Safe s'.rendered := by
  refine .ite (fun _ => ?_) fun _ => .ok h
  exact .bind (safe_append (safe_appendBoundary h _) hr) fun s hs =>
    .pure (safe_appendBoundary hs _)

theorem safe_renderToolCalls (calls : List ToolCall) (body : RenderedFragment)
    (h : Safe s.rendered) :
    Ensures (c.renderToolCalls lib calls body s) fun s' => Safe s'.rendered := by
  refine .ite (fun _ => ?_) fun _ => .ok h
  exact .skip fun _ => safe_renderCalls lib _ h

theorem safe_renderAssistant (message : ChatMessage) (hm : Safe m.content) (h : Safe s.rendered) :
    Ensures (c.renderAssistant lib message m s) fun s' => Safe s'.rendered := by
  have hopen : ∀ p : Prop, ∀ _ : Decidable p,
      Safe (if p then s.checkpoint .turnClosure else s).rendered := by
    intro p _
    split <;> exact h
  refine .bind (safe_splitAssistant message hm) fun parts hp => ?_
  refine .bind (safe_trimAsciiWhitespace hp.1) fun reasoning hr => ?_
  refine .bind (safe_renderThinking _ hr (safe_appendBoundary (hopen _ _) _)) fun s hs => ?_
  refine .bind (safe_append hs hp.2) fun s hs => ?_
  exact .bind (safe_renderToolCalls lib _ _ hs) fun s hs =>
    .pure (safe_appendTemplate hs _)

theorem safe_renderMessage (entry : ChatMessage × Nat) (h : Safe s.rendered) :
    Ensures (c.renderMessage lib s entry) fun s' => Safe s'.rendered := by
  refine .skip fun _ => ?_
  refine .bind (safe_renderedContent entry.1 _ _ _ _) fun raw hraw => ?_
  refine .bind (safe_sliceFragment hraw _ _) fun content hc => ?_
  cases entry.1.role with
  | system => exact safe_renderPlain _ hc h
  | developer => exact safe_renderPlain _ hc h
  | user => exact safe_renderPlain _ hc h
  | tool => exact safe_renderToolResponse hc h
  | assistant =>
    exact .ite (fun _ => safe_renderContinuation hc h) fun _ =>
      safe_renderAssistant lib entry.1 hc h

theorem safe_renderGenerationPrompt (h : Safe s.rendered) :
    Safe (c.renderGenerationPrompt s).rendered := by
  unfold renderGenerationPrompt
  split
  · have hopen : ∀ t : Rendering, t.rendered = s.rendered → Safe (if c.options.enableThinking then
          ((t.appendTemplate "<|im_start|>assistant\n").addRewriteExecutionBoundary.appendTemplate
            "<think>\n").addRewriteExecutionBoundary
        else ((((t.appendTemplate
          "<|im_start|>assistant\n").addRewriteExecutionBoundary.appendTemplate
            "<think>\n").addRewriteExecutionBoundary).appendTemplate
              "\n</think>\n\n").addRewriteExecutionBoundary).rendered := by
      intro t ht
      have hthink := safe_appendBoundary (safe_appendBoundary (s := t) (ht ▸ h)
        "<|im_start|>assistant\n") "<think>\n"
      split
      · exact hthink
      · exact safe_appendBoundary hthink _
    refine hopen _ ?_
    split
    · rfl
    · split <;> rfl
  · exact h

end RenderContext

theorem safe_leadingOf (messages : List ChatMessage) : Ensures (leadingOf messages) fun leading =>
      Safe ((leading.map (·.fragment)).getD .empty) := by
  unfold leadingOf
  cases messages.head? with
  | none => exact .ok safe_empty
  | some first =>
    refine .ite (fun _ => ?_) fun _ => .ok safe_empty
    refine .bind (P := fun l => Safe l.fragment) ?_ fun leading hl => .pure hl
    refine .skip fun _ => ?_
    refine .bind (safe_renderedContent first _ _ _ _) fun raw hraw => ?_
    exact .bind (safe_sliceFragment hraw _ _) fun f hf => .pure hf

theorem safe_renderPreamble (options : ChatRenderOptions)
    {leading : Option LeadingInstruction} {reasoning : Text}
    (hl : Safe ((leading.map (·.fragment)).getD .empty)) (hr : NoUser reasoning) :
    Ensures (renderPreamble lib semantics options leading reasoning) fun out =>
      Safe out.fragment := by
  have hopen := safe_empty.appendTemplate (noUser_template "<|im_start|>system\n")
  refine .ite (fun _ => safe_renderToolsSystemBlock lib hl hr) fun _ =>
    .ite (fun _ => ?_) fun _ => .ite (fun _ => ?_) fun _ => .ok safe_empty
  · refine .ite (fun _ => ?_) fun _ => .ok safe_empty
    refine .bind (Safe.append ?_ hl) fun b hb =>
      .pure (hb.appendTemplate (noUser_template _))
    split
    · exact hopen
    · split
      · exact hopen.appendTemplate hr
      · exact (hopen.appendTemplate hr).appendTemplate (noUser_template _)
  · exact .ok ((hopen.appendTemplate hr).appendTemplate (noUser_template _))

/-- In every rendered conversation the caller's bytes lie in the literal spans. -/
theorem literal_render (messages : List ChatMessage)
    (options : ChatRenderOptions) :
    Ensures (render lib semantics messages options) fun r => Literal r.text r.literalSpans := by
  refine .skip fun _ => ?_
  refine .skip fun _ => ?_
  refine .bind (noUser_resolveReasoningInstructions _ _) fun reasoning hr => ?_
  refine .bind (safe_leadingOf messages) fun leading hl => ?_
  refine .bind (safe_renderPreamble lib semantics options hl hr) fun preamble hp => ?_
  refine .bind (safe_empty.append hp) fun rendered hrendered => ?_
  refine .skip fun lastQueryIndex => ?_
  refine .bind (.foldlM (I := fun s => Safe s.rendered)
    (fun s entry _ hs => RenderContext.safe_renderMessage lib entry hs) hrendered) fun s hs => ?_
  exact .pure (RenderContext.safe_renderGenerationPrompt hs)

end Rendering

end Ninfer.Frontend
