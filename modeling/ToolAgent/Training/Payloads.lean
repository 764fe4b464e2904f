import ToolAgent.Training.Jass
import ToolAgent.Training.Steps

/-!
# The size of what a judge is shown

Two settings bound what `jass` puts into a payload, `max_recent_messages` and `max_message_chars`,
and one, `max_step_chars`, what `llm_judge` puts into a prompt. All three are read from the
environment as integers, so they can be small, and both bounds give way when they are:

* `messages[-n:]` is every message when `n` is `0`;
* a text that is cut is given a suffix of 14 characters, after `max_chars - 16` of its own. Below
  `16` that number is negative and counts from the end of the text.

## Main results

* `length_truncate_le_iff` — when a cut text is within the limit
* `recentMessages_bounded_iff` — when the recent messages of a checkpoint are
* `payloads_bounded_iff` — the same for the candidates, and for the prompt of a step
-/

namespace ToolAgent

open Python

namespace LlmJudge

/-! ### One text -/

/-- A cut text is within the limit if the limit leaves room for the suffix, or nothing is cut. -/
theorem length_truncate_le_iff (text : PyStr) {maxChars : ℤ} (hmax : 0 ≤ maxChars) :
    ((truncate text maxChars).length : ℤ) ≤ maxChars ↔ 16 ≤ maxChars ∨
    (text.length : ℤ) ≤ maxChars := by
  have hsuffix : (PyStr.ofString "...[truncated]").length = 14 := rfl
  rw [truncate]
  split
  · next hfits => exact iff_of_true hfits (.inr hfits)
  · next hlong =>
    rw [List.length_append, hsuffix, sliceTo]
    split
    · rw [List.length_take]
      omega
    · rw [List.length_take]
      omega

/-- The document that the prompt of a step carries. -/
def stepDocument (taskId : PyStr) (step : Step) (maxChars : ℤ) : PyVal :=
  .dict
    [("task_id", .str taskId),
      ("assistant", .str (truncate step.assistant maxChars)),
      ("tool_calls", .list step.tool_calls),
      ("observations", .list (step.observations.map fun o => .str (truncate o maxChars)))]

theorem buildStepPrompt_user (py : Interp) (taskId : PyStr) (step : Step) (rubric : List Criterion)
    (maxChars : ℤ) :
    (buildStepPrompt py taskId step rubric maxChars).user =
      py.dumps (stepDocument taskId step maxChars) := rfl

/-- The strings of a value: itself, or its elements. -/
def stringsOf : PyVal → List PyStr
  | .str text => [text]
  | .list xs => xs.filterMap fun
    | .str text => some text
    | _ => none
  | _ => []

/-- The assistant and the observation texts of a document. -/
def shownTexts : PyVal → List PyStr
  | .dict items => stringsOf (dictGet items "assistant") ++ stringsOf (dictGet items "observations")
  | _ => []

theorem shownTexts_stepDocument (taskId : PyStr) (step : Step) (maxChars : ℤ) :
    shownTexts (stepDocument taskId step maxChars) =
      step.texts.map fun text => truncate text maxChars := by
  change [truncate step.assistant maxChars] ++ List.filterMap _ (step.observations.map _) = _
  rw [List.filterMap_map, Step.texts, List.map_cons, List.singleton_append, ← List.filterMap_eq_map]
  rfl

theorem shownTexts_bounded_iff (taskId : PyStr) (step : Step) {maxChars : ℤ} (hmax : 0 ≤ maxChars) :
    (∀ text ∈ shownTexts (stepDocument taskId step maxChars), (text.length : ℤ) ≤ maxChars) ↔
      16 ≤ maxChars ∨ ∀ text ∈ step.texts, (text.length : ℤ) ≤ maxChars := by
  rw [shownTexts_stepDocument, List.forall_mem_map]
  simp only [length_truncate_le_iff _ hmax, ← forall_or_left]

end LlmJudge

namespace Jass

open LlmJudge

/-! ### Recent messages -/

/-- The text of a content, before it is cut. -/
def contentOf (py : Interp) (items : List (PyStr × PyVal)) : PyStr :=
  match dictGet items "content" (.str []) with
  | .str text => text
  | v => py.dumps v

/-- What the judge is shown of a message. -/
def recentEntry (py : Interp) (config : JASSConfig) (items : List (PyStr × PyVal)) :
    PyStr × PyStr :=
  (py.str (dictGet items "role" (.str [])),
    LlmJudge.truncate (contentOf py items) config.max_message_chars)

/-- The last `n` messages. -/
def lastOf (messages : List PyVal) (n : ℤ) : List PyVal := messages.drop (messages.length - n.toNat)

/-- What the two settings promise: few entries, from the end of the history and in order, with short
contents. -/
structure Bounded (py : Interp) (config : JASSConfig) (messages : List PyVal)
    (recent : List (PyStr × PyStr)) : Prop where
  count : (recent.length : ℤ) ≤ config.max_recent_messages
  fromEnd : ∃ last, last <:+ messages ∧ recent = (historyOf last).map (recentEntry py config)
  contents : ∀ m ∈ recent, (m.2.length : ℤ) ≤ config.max_message_chars

section Recent

variable {py : Interp} {config : JASSConfig}

theorem recentMessages_list (messages : List PyVal) :
    recentMessages py (.list messages) config =
      .ok ((historyOf (sliceFrom messages (-config.max_recent_messages))).map
        (recentEntry py config)) := by
  rw [historyOf, List.map_filterMap]
  refine congrArg Except.ok (List.filterMap_congr fun msg _ => ?_)
  cases msg with
  | dict items => rfl
  | null | bool _ | int _ | float _ | str _ | list _ => rfl

theorem sliceFrom_eq_lastOf {messages : List PyVal} {n : ℤ} (h : 1 ≤ n) :
    sliceFrom messages (-n) = lastOf messages n := by
  rw [sliceFrom, if_neg (by omega), neg_neg, lastOf]

/-- **When the recent messages are bounded.** -/
theorem recentMessages_bounded_iff (hrecent : 0 ≤ config.max_recent_messages)
    (hchars : 0 ≤ config.max_message_chars) {messages : List PyVal} {recent : List (PyStr × PyStr)}
    (h : recentMessages py (.list messages) config = .ok recent) :
    Bounded py config messages recent ↔
      (1 ≤ config.max_recent_messages ∨ historyOf messages = []) ∧
      (16 ≤ config.max_message_chars ∨
        ∀ items ∈ historyOf (lastOf messages config.max_recent_messages),
          ((contentOf py items).length : ℤ) ≤ config.max_message_chars) := by
  rw [recentMessages_list, Except.ok.injEq] at h
  have hcontents : (∀ m ∈ recent, (m.2.length : ℤ) ≤ config.max_message_chars) ↔
      16 ≤ config.max_message_chars ∨
        ∀ items ∈ historyOf (sliceFrom messages (-config.max_recent_messages)),
          ((contentOf py items).length : ℤ) ≤ config.max_message_chars := by
    rw [← h, List.forall_mem_map]
    simp only [recentEntry, length_truncate_le_iff _ hchars, ← forall_or_left]
  rcases hrecent.lt_or_eq with hpos | hzero
  · -- the slice is a suffix of the right length
    have hone : 1 ≤ config.max_recent_messages := by omega
    rw [sliceFrom_eq_lastOf hone] at h hcontents
    rw [← hcontents]
    constructor
    · exact fun hbounded => ⟨.inl hone, hbounded.contents⟩
    · rintro ⟨-, hshort⟩
      refine ⟨?_, ⟨lastOf messages config.max_recent_messages, List.drop_suffix _ _, h.symm⟩, hshort⟩
      have hlast : (historyOf (lastOf messages config.max_recent_messages)).length ≤
          (lastOf messages config.max_recent_messages).length := List.length_filterMap_le _ _
      have hlength : (lastOf messages config.max_recent_messages).length =
          messages.length - (messages.length - config.max_recent_messages.toNat) := List.length_drop
      rw [← h, List.length_map]
      omega
  · -- the slice is every message
    rw [← hzero, neg_zero, sliceFrom, if_pos le_rfl, Int.toNat_zero, List.drop_zero] at h
    have hlast : historyOf (lastOf messages config.max_recent_messages) = [] := by
      rw [lastOf, ← hzero, Int.toNat_zero, Nat.sub_zero, List.drop_length]
      rfl
    rw [hlast]
    constructor
    · intro hbounded
      have hnil : recent = [] := List.length_eq_zero_iff.mp (by have := hbounded.count; omega)
      rw [hnil, List.map_eq_nil_iff] at h
      exact ⟨.inr h, .inr fun items hitems => absurd hitems List.not_mem_nil⟩
    · rintro ⟨hone | hnone, -⟩
      · omega
      · rw [hnone, List.map_nil] at h
        rw [← h]
        exact ⟨hrecent, ⟨[], List.nil_suffix, rfl⟩, fun m hm => absurd hm List.not_mem_nil⟩

/-! ### Candidates -/

/-- The recent messages of a candidate are those of its checkpoint. -/
def ShowsRecent (py : Interp) (config : JASSConfig) (c : Candidate) : Prop :=
  ∃ messages, c.checkpoint.get "messages" (.list []) = .ok messages ∧
    recentMessages py messages config = .ok c.judge_payload.recent_messages

theorem candidateOf_showsRecent {candidateId traceIdx : ℕ} {trace : PyVal} {c : Candidate}
    (h : candidateOf py config candidateId traceIdx trace = .ok (some c)) :
    ShowsRecent py config c := by
  rw [candidateOf] at h
  split at h
  · cases h
  obtain ⟨best, -, h⟩ := bind_eq_ok.mp h
  rcases best with - | checkpoint
  · cases h
  obtain ⟨flags, -, h⟩ := bind_eq_ok.mp h
  obtain ⟨score, -, h⟩ := bind_eq_ok.mp h
  obtain ⟨kind, -, h⟩ := bind_eq_ok.mp h
  obtain ⟨toolName, -, h⟩ := bind_eq_ok.mp h
  obtain ⟨turnIdx, -, h⟩ := bind_eq_ok.mp h
  obtain ⟨features, -, h⟩ := bind_eq_ok.mp h
  obtain ⟨messages, hmessages, h⟩ := bind_eq_ok.mp h
  obtain ⟨recent, hrecent, h⟩ := bind_eq_ok.mp h
  rw [Except.ok.injEq, Option.some.injEq] at h
  rw [← h]
  exact ⟨messages, hmessages, hrecent⟩

theorem collectCandidates_showsRecent {traces : List (PyVal × ℕ)} :
    ∀ {candidates out : List Candidate}, collectCandidates py config candidates traces = .ok out →
      (∀ c ∈ candidates, ShowsRecent py config c) → ∀ c ∈ out, ShowsRecent py config c := by
  induction traces with
  | nil =>
    intro candidates out h hcandidates
    rw [← Except.ok.inj h]
    exact hcandidates
  | cons p traces ih =>
    obtain ⟨trace, traceIdx⟩ := p
    intro candidates out h hcandidates
    obtain ⟨candidate, hcandidate, h⟩ := bind_eq_ok.mp h
    refine ih h fun c hc => ?_
    rcases List.mem_append.mp hc with hc | hc
    · exact hcandidates c hc
    · rw [Option.mem_toList.mp hc] at hcandidate
      exact candidateOf_showsRecent hcandidate

theorem buildCandidates_showsRecent {traces : List PyVal} {candidates : List Candidate}
    (h : buildCandidates py config traces = .ok candidates) :
    ∀ c ∈ candidates, ShowsRecent py config c := by
  obtain ⟨collected, hcollect, h⟩ := bind_eq_ok.mp h
  rw [Except.ok.injEq] at h
  intro c hc
  rw [← h] at hc
  obtain ⟨k, hk⟩ := List.mem_iff_getElem?.mp hc
  obtain ⟨c₀, hc₀, rfl⟩ := rankCandidates_getElem? hk
  exact collectCandidates_showsRecent hcollect (fun c hc => absurd hc List.not_mem_nil) c₀ hc₀

end Recent

/-- **When what a judge is shown is bounded.** The recent messages of a candidate, unless none are
asked for and there are some, or a limit leaves no room for the suffix of a text that is cut; the
texts of a step, unless the limit leaves no room for the suffix. -/
theorem payloads_bounded_iff {py : Interp} {config : JASSConfig}
    (hrecent : 0 ≤ config.max_recent_messages) (hchars : 0 ≤ config.max_message_chars)
    {traces : List PyVal} {candidates : List Candidate}
    (hbuild : buildCandidates py config traces = .ok candidates)
    (taskId : PyStr) (step : Step) (rubric : List Criterion) {maxChars : ℤ} (hmax : 0 ≤ maxChars) :
    (∀ c ∈ candidates, ∀ messages,
      c.checkpoint.get "messages" (.list []) = .ok (.list messages) →
        (Bounded py config messages c.judge_payload.recent_messages ↔
          (1 ≤ config.max_recent_messages ∨ historyOf messages = []) ∧
          (16 ≤ config.max_message_chars ∨
            ∀ items ∈ historyOf (lastOf messages config.max_recent_messages),
              ((contentOf py items).length : ℤ) ≤ config.max_message_chars))) ∧
    (buildStepPrompt py taskId step rubric maxChars).user =
      py.dumps (stepDocument taskId step maxChars) ∧
    ((∀ text ∈ shownTexts (stepDocument taskId step maxChars), (text.length : ℤ) ≤ maxChars) ↔
      16 ≤ maxChars ∨ ∀ text ∈ step.texts, (text.length : ℤ) ≤ maxChars) := by
  refine ⟨fun c hc messages hmessages => ?_, buildStepPrompt_user py taskId step rubric maxChars,
    shownTexts_bounded_iff taskId step hmax⟩
  obtain ⟨shown, hshown, hlist⟩ := buildCandidates_showsRecent hbuild c hc
  rw [hmessages, Except.ok.injEq] at hshown
  rw [← hshown] at hlist
  exact recentMessages_bounded_iff hrecent hchars hlist

/-- A trace whose one checkpoint has two messages. -/
def talkTrace : PyVal :=
  .dict
    [("checkpoints", .list [.dict
        [("kind", .str "after_read_tool"),
          ("messages", .list
            [.dict [("role", .str "user"), ("content", .str "hello")],
              .dict [("role", .str "tool"), ("content", .str "reservation found")]]),
          ("replay_actions", .list []), ("turn_idx", .int 2),
          ("tool_name", .str "get_user_details"), ("features", .dict [])]]),
      ("flags", .dict [("read_count", .int 1), ("valid_tool_calls", .int 1)])]

theorem exists_candidate {α : Type} {x : Except PyErr (List Candidate)} {f : Candidate → α} {a : α}
    (h : x.map (List.map f) = .ok [a]) : ∃ c, x = .ok [c] ∧ f c = a := by
  obtain ⟨candidates, hx, hmap⟩ := map_eq_ok.mp h
  obtain ⟨c, rfl, hc⟩ := List.map_eq_singleton_iff.mp hmap
  exact ⟨c, hx, hc⟩

/-- With the default settings the payload is bounded, and so is the prompt of a long step. -/
theorem payloads_bounded_sample :
    (∃ c, buildCandidates .silent {} [talkTrace] = .ok [c] ∧ ∀ messages,
      c.checkpoint.get "messages" (.list []) = .ok (.list messages) →
        Bounded .silent {} messages c.judge_payload.recent_messages) ∧
    ∀ text ∈ shownTexts (stepDocument "0" ⟨List.replicate 1000 (ch 'a'), [], []⟩ 600),
      (text.length : ℤ) ≤ 600 := by
  obtain ⟨c, hbuild, -⟩ : ∃ c, buildCandidates .silent {} [talkTrace] = .ok [c] ∧
      c.trace_idx = 0 := exists_candidate (by decide +kernel)
  obtain ⟨hrecent, -, hshown⟩ := payloads_bounded_iff (by decide) (by decide) hbuild
    "0" ⟨List.replicate 1000 (ch 'a'), [], []⟩ RUBRIC (by decide : (0 : ℤ) ≤ 600)
  refine ⟨⟨c, hbuild, fun messages hmessages => ?_⟩, hshown.mpr (.inl (by decide))⟩
  exact (hrecent c List.mem_cons_self messages hmessages).mpr ⟨.inl (by decide), .inl (by decide)⟩

/-- No messages are asked for and all are shown; texts of more than 10 characters are not cut to
10. -/
theorem payloads_unbounded :
    (∃ c, buildCandidates .silent { max_recent_messages := 0 } [talkTrace] = .ok [c] ∧
      c.judge_payload.recent_messages.length = 2) ∧
    (∃ c, buildCandidates .silent { max_message_chars := 10 } [talkTrace] = .ok [c] ∧
      c.judge_payload.recent_messages.map (fun m => m.2.length) = [5, 25]) ∧
    (shownTexts (stepDocument "0" ⟨"reservation found", [], []⟩ 10)).map List.length = [25] :=
  ⟨exists_candidate (by decide +kernel), exists_candidate (by decide +kernel), rfl⟩

end Jass

end ToolAgent
