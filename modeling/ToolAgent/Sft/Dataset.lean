import ToolAgent.Library.Spans
import ToolAgent.Python.Value

/-!
# Loss on assistant tokens

`toolagent.sft_dataset`: a conversation becomes token ids and labels, and the labels repeat the ids
on what the assistant said and are `IGNORE_INDEX` elsewhere. Where the assistant's tokens are is
found by rendering two prefixes of the conversation for each of its messages.

## What the template owes

The chat template and the tokenizer are a parameter. `Stable` says that renderings of longer
prefixes start with those of shorter ones, and that the generation prompt is what an assistant
message starts with. It does not say that the generation prompt comes *after* the messages before
it: a template that renders nothing when asked for a generation prompt is `Stable`, and its spans
overlap. `GenerationExtends` says that.

## Main definitions

* `buildSupervisedExample`, `AssistantOnlyCollator` — the two functions
* `Stable`, `GenerationExtends` — what is asked of a template

## Main results

* `buildSupervisedExample_labels` — the labels, position by position
* `buildSupervisedExample_disjoint` — the spans do not overlap, so their lengths add up
* `collate_row` — a row of a batch is its example and padding
* `assistantOnlyLoss` — all of this together
-/

namespace ToolAgent

namespace Sft

open Python ToolAgent.Span

def IGNORE_INDEX : ℤ := -100

/-- A message: the items of a dictionary. -/
abbrev Message := List (PyStr × PyVal)

/-- A tokenizer with its chat template. Both may raise. -/
structure Tokenizer where
  apply_chat_template : List Message → Option (List PyVal) → (add_generation_prompt : Bool) →
    Except PyErr PyStr
  /-- `tokenizer(text, add_special_tokens=False)["input_ids"]`. -/
  encode : PyStr → Except PyErr (List ℕ)
  pad_token_id : ℤ

/-- The token ids of a rendering. -/
def Tokenizer.render (tokenizer : Tokenizer) (tools : Option (List PyVal)) (messages : List Message)
    (addGenerationPrompt : Bool) : Except PyErr (List ℕ) := do
  let text ← tokenizer.apply_chat_template messages tools addGenerationPrompt
  tokenizer.encode text

def isAssistant (message : Message) : Bool := dictGet message "role" = .str "assistant"

/-- `assistant_indices`. -/
def assistantIndices (messages : List Message) : List ℕ :=
  messages.zipIdx.filterMap fun (message, idx) => if isAssistant message then some idx else none

structure Example where
  input_ids : List ℕ
  labels : List ℤ
  attention_mask : List ℤ

/-- The tokens of the assistant message at `a`, or `none` where a rendering raises. -/
def spanOf (tokenizer : Tokenizer) (tools : Option (List PyVal)) (messages : List Message)
    (fullLength a : ℕ) : Option Span :=
  match tokenizer.render tools (messages.take a) true,
      tokenizer.render tools (messages.take (a + 1)) false with
  | .ok prefixIds, .ok withAssistantIds =>
    some ⟨prefixIds.length, min withAssistantIds.length fullLength⟩
  | _, _ => none

/-- The loop over the assistant messages. An empty span is skipped. -/
def labelLoop (tokenizer : Tokenizer) (tools : Option (List PyVal)) (messages : List Message)
    (fullIds : List ℕ) (labels : List ℤ) : List ℕ → Option (List ℤ)
  | [] => some labels
  | a :: indices =>
    match spanOf tokenizer tools messages fullIds.length a with
    | none => none
    | some s =>
      if s.stop ≤ s.start then labelLoop tokenizer tools messages fullIds labels indices
      else
        labelLoop tokenizer tools messages fullIds
          (copySpan (fullIds.map (↑)) labels s) indices

def buildSupervisedExample (messages : List Message) (tokenizer : Tokenizer)
    (tools : Option (List PyVal)) (maxLength : ℤ := 8192) : Option Example :=
  let assistants := assistantIndices messages
  if assistants.isEmpty then none
  else
    match tokenizer.render tools messages false with
    | .error _ => none
    | .ok fullIds =>
      if maxLength < fullIds.length then none
      else
        match labelLoop tokenizer tools messages fullIds
            (List.replicate fullIds.length IGNORE_INDEX) assistants with
        | none => none
        | some labels =>
          if labels.countP (· ≠ IGNORE_INDEX) < 5 then none
          else some ⟨fullIds, labels, List.replicate fullIds.length 1⟩

/-! ### Batches -/

structure Batch where
  input_ids : List (List ℤ)
  labels : List (List ℤ)
  attention_mask : List (List ℤ)

/-- `row[:length] = values`. A single value fills the slice. -/
def assignPrefix (row : List ℤ) (length : ℕ) (values : List ℤ) : Except PyErr (List ℤ) :=
  let length := min length row.length
  if values.length = length then .ok (values ++ row.drop length)
  else
    match values with
    | [x] => .ok (List.replicate length x ++ row.drop length)
    | _ => throw .runtimeError "The expanded size of the tensor must match the existing size"

/-- The rows of one tensor of the batch. -/
def padRows (fill : ℤ) (maxLen : ℕ) (values : Example → List ℤ) (batch : List Example) :
    Except PyErr (List (List ℤ)) :=
  batch.mapM fun item =>
    assignPrefix (List.replicate maxLen fill) item.input_ids.length (values item)

def AssistantOnlyCollator (padTokenId : ℤ) (batch : List Example) : Except PyErr Batch :=
  match (batch.map fun item => item.input_ids.length).max? with
  | none => throw .valueError "max() arg is an empty sequence"
  | some maxLen => do
    let inputIds ← padRows padTokenId maxLen (fun item => item.input_ids.map (↑)) batch
    let labels ← padRows IGNORE_INDEX maxLen Example.labels batch
    let attentionMask ← padRows 0 maxLen Example.attention_mask batch
    .ok ⟨inputIds, labels, attentionMask⟩

/-- Strip the padding: keep what the mask marks. -/
def strip (mask row : List ℤ) : List ℤ :=
  ((row.zip mask).filter fun p => p.2 = 1).map Prod.fst

/-! ### What is asked of a template -/

section Template

variable (tokenizer : Tokenizer) (tools : Option (List PyVal)) (messages : List Message)

/-- Renderings of longer prefixes start with those of shorter ones, and an assistant message starts
with the generation prompt. -/
structure Stable : Prop where
  extends_prefix : ∀ i j, i ≤ j → ∀ xs ys,
    tokenizer.render tools (messages.take i) false = .ok xs →
    tokenizer.render tools (messages.take j) false = .ok ys → xs <+: ys
  generation_prompt : ∀ a ∈ assistantIndices messages, ∀ xs ys,
    tokenizer.render tools (messages.take a) true = .ok xs →
    tokenizer.render tools (messages.take (a + 1)) false = .ok ys → xs <+: ys

/-- The generation prompt comes after the messages before it. -/
def GenerationExtends : Prop :=
  ∀ a ∈ assistantIndices messages, ∀ i ≤ a, ∀ xs ys,
    tokenizer.render tools (messages.take i) false = .ok xs →
    tokenizer.render tools (messages.take a) true = .ok ys → xs <+: ys

/-- `[len(prefix_a), len(with_a))`. -/
def assistantSpan (a : ℕ) : Span where
  start := (tokenizer.render tools (messages.take a) true).toOption.elim 0 List.length
  stop := (tokenizer.render tools (messages.take (a + 1)) false).toOption.elim 0 List.length

def assistantSpans : List Span :=
  (assistantIndices messages).map (assistantSpan tokenizer tools messages)

end Template

/-! ### The labels -/

section Labels

variable {tokenizer : Tokenizer} {tools : Option (List PyVal)} {messages : List Message}

/-- Assistant messages are found from left to right. -/
theorem assistantIndices_pairwise (messages : List Message) :
    (assistantIndices messages).Pairwise (· < ·) := by
  have hzip : messages.zipIdx.Pairwise fun x y => x.2 < y.2 := by
    rw [← List.pairwise_map, List.zipIdx_map_snd]
    exact List.pairwise_lt_range'
  refine hzip.filterMap _ fun x y hxy a ha b hb => ?_
  rw [Option.ite_none_right_eq_some] at ha hb
  rw [← Option.some.inj ha.2, ← Option.some.inj hb.2]
  exact hxy

theorem assistantSpan_start {a : ℕ} {xs : List ℕ}
    (h : tokenizer.render tools (messages.take a) true = .ok xs) :
    (assistantSpan tokenizer tools messages a).start = xs.length := by
  rw [assistantSpan, h]
  rfl

theorem assistantSpan_stop {a : ℕ} {xs : List ℕ}
    (h : tokenizer.render tools (messages.take (a + 1)) false = .ok xs) :
    (assistantSpan tokenizer tools messages a).stop = xs.length := by
  rw [assistantSpan, h]
  rfl

/-- Both renderings for the assistant message at `a` succeed. -/
def Renders (tokenizer : Tokenizer) (tools : Option (List PyVal)) (messages : List Message)
    (a : ℕ) : Prop :=
  ∃ xs ys, tokenizer.render tools (messages.take a) true = .ok xs ∧
    tokenizer.render tools (messages.take (a + 1)) false = .ok ys

/-- Cut a span off at the end of the conversation. -/
def cut (n : ℕ) (s : Span) : Span := ⟨s.start, min s.stop n⟩

theorem spanOf_eq_some {n a : ℕ} {s : Span} (h : spanOf tokenizer tools messages n a = some s) :
    s = cut n (assistantSpan tokenizer tools messages a) ∧ Renders tokenizer tools messages a := by
  rw [spanOf] at h
  split at h
  · next xs ys hxs hys =>
    rw [← Option.some.inj h, cut, assistantSpan_start hxs, assistantSpan_stop hys]
    exact ⟨rfl, xs, ys, hxs, hys⟩
  · cases h

theorem copySpan_empty {α : Type} (src dst : List α) {s : Span} (h : s.stop ≤ s.start) :
    copySpan src dst s = dst := by
  have hlen : s.length = 0 := by
    rw [Span.length]
    omega
  rw [copySpan, hlen]
  rfl

/-- The loop copies the spans one after the other. -/
theorem labelLoop_eq_some {fullIds : List ℕ} {indices : List ℕ} :
    ∀ {labels out : List ℤ}, labelLoop tokenizer tools messages fullIds labels indices = some out →
      out = copySpans (fullIds.map (↑)) labels
        (indices.map fun a => cut fullIds.length (assistantSpan tokenizer tools messages a)) ∧
      ∀ a ∈ indices, Renders tokenizer tools messages a := by
  induction indices with
  | nil =>
    intro labels out h
    rw [← Option.some.inj h]
    exact ⟨rfl, by simp⟩
  | cons a indices ih =>
    intro labels out h
    rw [labelLoop] at h
    rcases hspan : spanOf tokenizer tools messages fullIds.length a with - | s
    · rw [hspan] at h
      cases h
    · obtain ⟨hs, hrenders⟩ := spanOf_eq_some hspan
      rw [hspan] at h
      have hstep : labelLoop tokenizer tools messages fullIds
          (copySpan (fullIds.map (↑)) labels s) indices = some out := by
        dsimp only at h
        split at h
        · next hempty => rwa [copySpan_empty _ _ hempty]
        · exact h
      obtain ⟨hout, hrest⟩ := ih hstep
      refine ⟨?_, List.forall_mem_cons.mpr ⟨hrenders, hrest⟩⟩
      rw [hout, hs]
      rfl

/-- What an example is made of. -/
theorem buildSupervisedExample_eq_some {maxLength : ℤ} {ex : Example}
    (h : buildSupervisedExample messages tokenizer tools maxLength = some ex) :
    tokenizer.render tools messages false = .ok ex.input_ids ∧
      ex.labels = copySpans (ex.input_ids.map (↑))
        (List.replicate ex.input_ids.length IGNORE_INDEX)
        ((assistantIndices messages).map fun a =>
          cut ex.input_ids.length (assistantSpan tokenizer tools messages a)) ∧
      ex.attention_mask = List.replicate ex.input_ids.length 1 ∧
      ∀ a ∈ assistantIndices messages, Renders tokenizer tools messages a := by
  rw [buildSupervisedExample] at h
  split at h
  · cases h
  split at h
  · cases h
  · next fullIds hrender =>
    split at h
    · cases h
    split at h
    · cases h
    · next labels hloop =>
      split at h
      · cases h
      · obtain ⟨hlabels, hrenders⟩ := labelLoop_eq_some hloop
        rw [← Option.some.inj h]
        exact ⟨hrender, hlabels, rfl, hrenders⟩

/-- A label is `IGNORE_INDEX` or the id at its position. -/
structure WellFormed (ex : Example) : Prop where
  length_labels : ex.labels.length = ex.input_ids.length
  attention_mask : ex.attention_mask = List.replicate ex.input_ids.length 1
  label : ∀ (p : ℕ) (label : ℤ), ex.labels[p]? = some label → label ≠ IGNORE_INDEX →
    (ex.input_ids.map ((↑) : ℕ → ℤ))[p]? = some label

theorem getElem?_replicate_ignore {n p : ℕ} {label : ℤ}
    (h : (List.replicate n IGNORE_INDEX)[p]? = some label) : label = IGNORE_INDEX :=
  List.eq_of_mem_replicate (List.mem_of_getElem? h)

theorem buildSupervisedExample_wellFormed {maxLength : ℤ} {ex : Example}
    (h : buildSupervisedExample messages tokenizer tools maxLength = some ex) : WellFormed ex := by
  obtain ⟨-, hlabels, hmask, -⟩ := buildSupervisedExample_eq_some h
  have hlen : (List.replicate ex.input_ids.length IGNORE_INDEX).length =
      (ex.input_ids.map ((↑) : ℕ → ℤ)).length := by simp
  refine ⟨?_, hmask, ?_⟩
  · rw [hlabels, length_copySpans, List.length_replicate]
  · intro p label hp hne
    rw [hlabels, getElem?_copySpans _ p hlen] at hp
    split at hp
    · exact hp
    · exact absurd (getElem?_replicate_ignore hp) hne

/-- Under a stable template no span has to be cut off. -/
theorem cut_assistantSpan (hstable : Stable tokenizer tools messages) {fullIds : List ℕ}
    (hfull : tokenizer.render tools messages false = .ok fullIds) {a : ℕ}
    (ha : Renders tokenizer tools messages a) :
    (assistantSpan tokenizer tools messages a).stop ≤ fullIds.length := by
  obtain ⟨-, ys, -, hys⟩ := ha
  have hall : messages.take (max (a + 1) messages.length) = messages :=
    List.take_of_length_le (le_max_right _ _)
  have hprefix := hstable.extends_prefix (a + 1) (max (a + 1) messages.length) (le_max_left _ _)
    ys fullIds hys (by rw [hall, hfull])
  rw [assistantSpan_stop hys]
  exact hprefix.length_le

/-- The labels of an example and the spans they come from. -/
structure Supervises (spans : List Span) (ex : Example) : Prop where
  length_labels : ex.labels.length = ex.input_ids.length
  label_iff : ∀ (p : ℕ) (label : ℤ) (id : ℕ), ex.labels[p]? = some label →
    ex.input_ids[p]? = some id → (label = id ↔ Covers spans p)
  ignored : ∀ (p : ℕ) (label : ℤ), ex.labels[p]? = some label → ¬Covers spans p →
    label = IGNORE_INDEX

/-- **The labels**: the ids of the assistant spans, and `IGNORE_INDEX` elsewhere. -/
theorem buildSupervisedExample_labels (hstable : Stable tokenizer tools messages) {maxLength : ℤ}
    {ex : Example} (h : buildSupervisedExample messages tokenizer tools maxLength = some ex) :
    Supervises (assistantSpans tokenizer tools messages) ex := by
  obtain ⟨hfull, hlabels, -, hrenders⟩ := buildSupervisedExample_eq_some h
  have hcut : ((assistantIndices messages).map fun a =>
      cut ex.input_ids.length (assistantSpan tokenizer tools messages a)) =
      assistantSpans tokenizer tools messages := by
    refine List.map_congr_left fun a ha => ?_
    rw [cut, min_eq_left (cut_assistantSpan hstable hfull (hrenders a ha))]
  have hlen : (List.replicate ex.input_ids.length IGNORE_INDEX).length =
      (ex.input_ids.map ((↑) : ℕ → ℤ)).length := by simp
  have hget : ∀ p, ex.labels[p]? = if Covers (assistantSpans tokenizer tools messages) p then
      (ex.input_ids.map ((↑) : ℕ → ℤ))[p]? else (List.replicate ex.input_ids.length IGNORE_INDEX)[p]? :=
    fun p => by rw [hlabels, hcut, getElem?_copySpans _ p hlen]
  refine ⟨(buildSupervisedExample_wellFormed h).length_labels, ?_, ?_⟩
  · intro p label id hlabel hid
    rw [hget] at hlabel
    split at hlabel
    · next hcovers =>
      rw [List.getElem?_map, hid, Option.map_some, Option.some.injEq] at hlabel
      exact iff_of_true hlabel.symm hcovers
    · next hcovers =>
      have hignore := getElem?_replicate_ignore hlabel
      refine iff_of_false (fun heq => ?_) hcovers
      rw [hignore, IGNORE_INDEX] at heq
      omega
  · intro p label hlabel hcovers
    rw [hget, if_neg hcovers] at hlabel
    exact getElem?_replicate_ignore hlabel

/-- **The spans do not overlap** when the generation prompt comes after what is before it. -/
theorem assistantSpans_pairwise (hgen : GenerationExtends tokenizer tools messages)
    (hrenders : ∀ a ∈ assistantIndices messages, Renders tokenizer tools messages a) :
    (assistantSpans tokenizer tools messages).Pairwise Span.Disjoint := by
  rw [assistantSpans, List.pairwise_map]
  refine (assistantIndices_pairwise messages).imp_of_mem fun {a b} ha hb hab => ?_
  obtain ⟨-, ys, -, hys⟩ := hrenders a ha
  obtain ⟨xs, -, hxs, -⟩ := hrenders b hb
  refine disjoint_of_le ?_
  rw [assistantSpan_stop hys, assistantSpan_start hxs]
  exact (hgen b hb (a + 1) hab ys xs hys hxs).length_le

/-- A position is supervised exactly when a span covers it. -/
theorem countP_labels {spans : List Span} {ex : Example} (h : Supervises spans ex) :
    ex.labels.countP (· ≠ IGNORE_INDEX) =
      (List.range ex.input_ids.length).countP fun p => decide (Covers spans p) := by
  have hmap : ex.labels = (List.range ex.input_ids.length).map fun p => ex.labels.getD p 0 := by
    refine List.ext_getElem (by simp [h.length_labels]) fun p hp _ => ?_
    rw [List.getElem_map, List.getElem_range, List.getD_eq_getElem?_getD,
      List.getElem?_eq_getElem hp, Option.getD_some]
  rw [hmap, List.countP_map]
  refine List.countP_congr fun p hp => ?_
  have hp' := List.mem_range.mp hp
  have hlabel : ex.labels[p]? = some (ex.labels.getD p 0) := by
    have hlt : p < ex.labels.length := by rw [h.length_labels]; exact hp'
    rw [List.getD_eq_getElem?_getD, List.getElem?_eq_getElem hlt, Option.getD_some]
  have hid := List.getElem?_eq_getElem hp'
  simp only [Function.comp_apply, decide_eq_true_eq]
  constructor
  · intro hne
    by_contra hcovers
    exact hne (h.ignored p _ hlabel hcovers)
  · intro hcovers heq
    rw [(h.label_iff p _ _ hlabel hid).mpr hcovers, IGNORE_INDEX] at heq
    omega

/-- **The lengths add up.** -/
theorem buildSupervisedExample_disjoint (hstable : Stable tokenizer tools messages)
    (hgen : GenerationExtends tokenizer tools messages) {maxLength : ℤ} {ex : Example}
    (h : buildSupervisedExample messages tokenizer tools maxLength = some ex) :
    (assistantSpans tokenizer tools messages).Pairwise Span.Disjoint ∧
      ex.labels.countP (· ≠ IGNORE_INDEX) =
        ((assistantSpans tokenizer tools messages).map Span.length).sum := by
  obtain ⟨hfull, -, -, hrenders⟩ := buildSupervisedExample_eq_some h
  have hdisj := assistantSpans_pairwise hgen hrenders
  refine ⟨hdisj, ?_⟩
  rw [countP_labels (buildSupervisedExample_labels hstable h), countP_covered _ hdisj]
  intro s hs
  obtain ⟨a, ha, rfl⟩ := List.mem_map.mp hs
  exact cut_assistantSpan hstable hfull (hrenders a ha)

end Labels

/-! ### The rows of a batch -/

/-- A row with its padding. -/
def padded (fill : ℤ) (maxLen : ℕ) (values : List ℤ) : List ℤ :=
  values ++ List.replicate (maxLen - values.length) fill

theorem assignPrefix_eq_ok {fill : ℤ} {maxLen : ℕ} {values : List ℤ} (h : values.length ≤ maxLen) :
    assignPrefix (List.replicate maxLen fill) values.length values =
      .ok (padded fill maxLen values) := by
  have hmin : min values.length (List.replicate maxLen fill).length = values.length := by
    rw [List.length_replicate, min_eq_left h]
  show (if values.length = min values.length (List.replicate maxLen fill).length then _ else _) = _
  rw [hmin, if_pos rfl, List.drop_replicate, padded]

theorem padRows_eq_ok {fill : ℤ} {maxLen : ℕ} {values : Example → List ℤ} {batch : List Example}
    (hlen : ∀ ex ∈ batch, (values ex).length = ex.input_ids.length)
    (hmax : ∀ ex ∈ batch, ex.input_ids.length ≤ maxLen) :
    padRows fill maxLen values batch =
      .ok (batch.map fun ex => padded fill maxLen (values ex)) := by
  refine mapM_eq_ok_map fun ex hex => ?_
  rw [← hlen ex hex]
  exact assignPrefix_eq_ok (by rw [hlen ex hex]; exact hmax ex hex)

/-- Stripping keeps a row up to its padding. -/
theorem strip_padded {fill : ℤ} {maxLen n : ℕ} {values : List ℤ} (h : values.length = n) :
    strip (padded 0 maxLen (List.replicate n 1)) (padded fill maxLen values) = values := by
  have hzip : (padded fill maxLen values).zip (padded 0 maxLen (List.replicate n 1)) =
      values.zip (List.replicate n 1) ++
        (List.replicate (maxLen - n) fill).zip (List.replicate (maxLen - n) 0) := by
    rw [padded, padded, h, List.length_replicate]
    exact List.zip_append (by rw [h, List.length_replicate])
  have hkeep : (values.zip (List.replicate n (1 : ℤ))).filter (fun p => decide (p.2 = 1)) =
      values.zip (List.replicate n 1) :=
    List.filter_eq_self.mpr fun p hp => by
      simp [List.eq_of_mem_replicate (List.of_mem_zip hp).2]
  have hdrop : ((List.replicate (maxLen - n) fill).zip (List.replicate (maxLen - n) (0 : ℤ))).filter
      (fun p => decide (p.2 = 1)) = [] :=
    List.filter_eq_nil_iff.mpr fun p hp => by
      simp [List.eq_of_mem_replicate (List.of_mem_zip hp).2]
  rw [strip, hzip, List.filter_append, hkeep, hdrop, List.append_nil, List.map_fst_zip]
  rw [List.length_replicate, h]

/-- What a row of a batch owes its example. -/
structure RowOf (ex : Example) (ids labels mask : List ℤ) : Prop where
  supervised : ∀ (p : ℕ) (label : ℤ), labels[p]? = some label → label ≠ IGNORE_INDEX →
    mask[p]? = some 1 ∧ ids[p]? = some label
  input_ids : strip mask ids = ex.input_ids.map (↑)
  labels : strip mask labels = ex.labels
  attention_mask : strip mask mask = ex.attention_mask

theorem padded_rowOf {ex : Example} (hex : WellFormed ex) (pad : ℤ) (maxLen : ℕ) :
    RowOf ex (padded pad maxLen (ex.input_ids.map (↑))) (padded IGNORE_INDEX maxLen ex.labels)
      (padded 0 maxLen ex.attention_mask) := by
  have hids : (ex.input_ids.map ((↑) : ℕ → ℤ)).length = ex.input_ids.length := List.length_map _
  refine ⟨fun p label hlabel hne => ?_, ?_, ?_, ?_⟩
  · have hlt : p < ex.labels.length := by
      by_contra hge
      rw [padded, List.getElem?_append_right (by omega)] at hlabel
      exact hne (getElem?_replicate_ignore hlabel)
    rw [padded, List.getElem?_append_left hlt] at hlabel
    have hlt' : p < ex.input_ids.length := by
      rw [← hex.length_labels]
      exact hlt
    constructor
    · rw [hex.attention_mask, padded, List.getElem?_append_left (by rwa [List.length_replicate]),
        List.getElem?_replicate, if_pos hlt']
    · rw [padded, List.getElem?_append_left (by rwa [hids])]
      exact hex.label p label hlabel hne
  · rw [hex.attention_mask]
    exact strip_padded hids
  · rw [hex.attention_mask]
    exact strip_padded hex.length_labels
  · rw [hex.attention_mask]
    exact strip_padded List.length_replicate

/-- **A batch is its examples and padding.** -/
theorem collate_row (padTokenId : ℤ) {batch : List Example} (hne : batch ≠ [])
    (hbatch : ∀ ex ∈ batch, WellFormed ex) :
    ∃ out, AssistantOnlyCollator padTokenId batch = .ok out ∧
      out.input_ids.length = batch.length ∧
      ∀ (i : ℕ) (ex : Example), batch[i]? = some ex → ∃ ids labels mask,
        out.input_ids[i]? = some ids ∧ out.labels[i]? = some labels ∧
        out.attention_mask[i]? = some mask ∧ RowOf ex ids labels mask := by
  rcases hmax : (batch.map fun item => item.input_ids.length).max? with - | maxLen
  · rw [List.max?_eq_none_iff, List.map_eq_nil_iff] at hmax
    exact absurd hmax hne
  have hle : ∀ ex ∈ batch, ex.input_ids.length ≤ maxLen := fun ex hex =>
    (List.max?_eq_some_iff.mp hmax).2 _ (List.mem_map.mpr ⟨ex, hex, rfl⟩)
  have hids : padRows padTokenId maxLen (fun item => item.input_ids.map (↑)) batch = _ :=
    padRows_eq_ok (fun ex _ => List.length_map _) hle
  have hlabels : padRows IGNORE_INDEX maxLen Example.labels batch = _ :=
    padRows_eq_ok (fun ex hex => (hbatch ex hex).length_labels) hle
  have hmask : padRows 0 maxLen Example.attention_mask batch = _ :=
    padRows_eq_ok (fun ex hex => by rw [(hbatch ex hex).attention_mask, List.length_replicate]) hle
  rw [AssistantOnlyCollator, hmax]
  simp only [hids, hlabels, hmask, bind, Except.bind]
  refine ⟨_, rfl, List.length_map _, fun i ex hi => ?_⟩
  refine ⟨_, _, _, ?_, ?_, ?_, padded_rowOf (hbatch ex (List.mem_of_getElem? hi)) padTokenId maxLen⟩
  · rw [List.getElem?_map, hi, Option.map_some]
  · rw [List.getElem?_map, hi, Option.map_some]
  · rw [List.getElem?_map, hi, Option.map_some]

/-- **Loss on the assistant's tokens only.** Under a stable template the labels of an example are
its ids on the assistant spans and `IGNORE_INDEX` elsewhere; where the generation prompt comes after
what is before it, the spans are disjoint and their lengths add up; and a batch keeps all that. -/
theorem assistantOnlyLoss (tokenizer : Tokenizer) (tools : Option (List PyVal)) (maxLength : ℤ) :
    (∀ (messages : List Message) (ex : Example),
      buildSupervisedExample messages tokenizer tools maxLength = some ex →
      Stable tokenizer tools messages →
      Supervises (assistantSpans tokenizer tools messages) ex ∧
        (GenerationExtends tokenizer tools messages →
          (assistantSpans tokenizer tools messages).Pairwise Span.Disjoint ∧
            ex.labels.countP (· ≠ IGNORE_INDEX) =
              ((assistantSpans tokenizer tools messages).map Span.length).sum)) ∧
    ∀ batch : List Example, batch ≠ [] →
      (∀ ex ∈ batch, ∃ messages,
        buildSupervisedExample messages tokenizer tools maxLength = some ex) →
      ∃ out, AssistantOnlyCollator tokenizer.pad_token_id batch = .ok out ∧
        out.input_ids.length = batch.length ∧
        ∀ (i : ℕ) (ex : Example), batch[i]? = some ex → ∃ ids labels mask,
          out.input_ids[i]? = some ids ∧ out.labels[i]? = some labels ∧
          out.attention_mask[i]? = some mask ∧ RowOf ex ids labels mask := by
  refine ⟨fun messages ex hex hstable => ⟨buildSupervisedExample_labels hstable hex, fun hgen =>
    buildSupervisedExample_disjoint hstable hgen hex⟩, fun batch hne hbatch => ?_⟩
  refine collate_row tokenizer.pad_token_id hne fun ex hex => ?_
  obtain ⟨messages, hmessages⟩ := hbatch ex hex
  exact buildSupervisedExample_wellFormed hmessages

/-! ### A template with and without a generation prompt -/

/-- The text of a message. -/
def content (message : Message) : PyStr :=
  match dictGet message "content" with
  | .str s => s
  | _ => []

/-- Each message is a marker and its content, each code point is a token, and `prompt` is rendered
for `add_generation_prompt` after the messages, or in place of them. -/
def sampleTokenizer (after : Bool) (prompt : PyStr) : Tokenizer where
  apply_chat_template messages _ addGenerationPrompt :=
    let text := messages.flatMap fun message => 7 :: content message
    .ok (if addGenerationPrompt then (if after then text ++ prompt else prompt) else text)
  encode text := .ok text
  pad_token_id := 0

theorem sampleTokenizer_stable (after : Bool) (tools : Option (List PyVal))
    (messages : List Message) {prompt : PyStr} (hprompt : prompt = if after then [7] else []) :
    Stable (sampleTokenizer after prompt) tools messages where
  extends_prefix := by
    intro i j hij xs ys hxs hys
    rw [← Except.ok.inj hxs, ← Except.ok.inj hys]
    exact (List.take_prefix_take_left hij).flatMap _
  generation_prompt := by
    intro a ha xs ys hxs hys
    rw [← Except.ok.inj hxs, ← Except.ok.inj hys, hprompt]
    rcases after with - | -
    · exact List.nil_prefix
    · obtain ⟨⟨message, idx⟩, hmem, hidx⟩ := List.mem_filterMap.mp ha
      rw [Option.ite_none_right_eq_some] at hidx
      obtain ⟨-, hidx⟩ := hidx
      have hget : messages[a]? = some message := by
        rw [← Option.some.inj hidx]
        exact List.mk_mem_zipIdx_iff_getElem?.mp hmem
      have htake : messages.take (a + 1) = messages.take a ++ [message] := by
        rw [List.take_add_one, hget, Option.toList_some]
      rw [htake]
      simp

theorem sampleTokenizer_generationExtends (tools : Option (List PyVal)) (messages : List Message)
    (prompt : PyStr) : GenerationExtends (sampleTokenizer true prompt) tools messages := by
  intro a _ i hi xs ys hxs hys
  rw [← Except.ok.inj hxs, ← Except.ok.inj hys]
  exact ((List.take_prefix_take_left hi).flatMap _).trans (List.prefix_append _ _)

def sampleMessages : List Message :=
  [[("role", .str "assistant"), ("content", .str "hello")],
    [("role", .str "assistant"), ("content", .str "world")]]

theorem assistantOnlyLoss_sample : ∃ ex,
    buildSupervisedExample sampleMessages (sampleTokenizer true [7]) none 8192 = some ex ∧
    Supervises (assistantSpans (sampleTokenizer true [7]) none sampleMessages) ex ∧
    (assistantSpans (sampleTokenizer true [7]) none sampleMessages).Pairwise Span.Disjoint ∧
    ex.labels.countP (· ≠ IGNORE_INDEX) =
      ((assistantSpans (sampleTokenizer true [7]) none sampleMessages).map Span.length).sum ∧
    ∃ out, AssistantOnlyCollator 0 [ex, ex] = .ok out ∧ out.input_ids.length = 2 := by
  have hsome : (buildSupervisedExample sampleMessages (sampleTokenizer true [7]) none 8192).isSome :=
    by decide
  obtain ⟨ex, hex⟩ := Option.isSome_iff_exists.mp hsome
  obtain ⟨hlabels, hcollate⟩ := assistantOnlyLoss (sampleTokenizer true [7]) none 8192
  obtain ⟨hsupervises, hdisjoint⟩ :=
    hlabels sampleMessages ex hex (sampleTokenizer_stable true none sampleMessages rfl)
  obtain ⟨hpairwise, hcount⟩ :=
    hdisjoint (sampleTokenizer_generationExtends none sampleMessages [7])
  obtain ⟨out, hout, hlen, -⟩ := hcollate [ex, ex] (by simp) (by simpa using ⟨_, hex⟩)
  exact ⟨ex, hex, hsupervises, hpairwise, hcount, out, hout, hlen⟩

/-- A template that renders nothing for a generation prompt is stable, and both spans start at
zero. -/
theorem assistantSpans_overlap :
    (∀ messages, Stable (sampleTokenizer false []) none messages) ∧
    ∃ ex, buildSupervisedExample sampleMessages (sampleTokenizer false []) none 8192 = some ex ∧
      ¬(assistantSpans (sampleTokenizer false []) none sampleMessages).Pairwise Span.Disjoint ∧
      ex.labels.countP (· ≠ IGNORE_INDEX) ≠
        ((assistantSpans (sampleTokenizer false []) none sampleMessages).map Span.length).sum := by
  refine ⟨fun messages => sampleTokenizer_stable false none messages rfl, ?_⟩
  have hspans : assistantSpans (sampleTokenizer false []) none sampleMessages =
      [⟨0, 6⟩, ⟨0, 12⟩] := rfl
  have hcount : (buildSupervisedExample sampleMessages (sampleTokenizer false []) none 8192).map
      (fun ex => ex.labels.countP (· ≠ IGNORE_INDEX)) = some 12 := by decide
  obtain ⟨ex, hex, hex12⟩ := Option.map_eq_some_iff.mp hcount
  refine ⟨ex, hex, fun hpairwise => ?_, ?_⟩
  · rw [hspans] at hpairwise
    have hzero := (List.pairwise_cons.mp hpairwise).1 ⟨0, 12⟩ List.mem_cons_self 0
    exact hzero (by decide) (by decide)
  · rw [hspans, hex12]
    decide

end Sft

end ToolAgent
