import ToolAgent.Library.Neighbours
import ToolAgent.Python.Builtins
import Mathlib.Algebra.Order.BigOperators.Group.List
import Mathlib.Tactic.Positivity

/-!
# The LLM judge

`toolagent.training.llm_judge`: a judge scores the key steps of a failed trajectory, and the mean
score, scaled by `alpha`, replaces the trajectory's reward.

Messages are JSON values of any shape. `extractSteps` skips what is not a dictionary, but neither
it nor `stepToolNames` guards the values of `tool_calls` and `function`, so both can raise.

## The judge

The judge is a language model behind an HTTP endpoint. Here it is a function of the number of calls
made so far and of the prompt, which covers every run of a judge that answers differently each time.
It answers with text or raises.

## Main definitions

* `Step`, `extractSteps`, `selectKeySteps` — a history as steps, and the steps worth judging
* `writes`, `keySteps` — the steps that call a write tool, and those that are meant to be judged
* `parseJudgeResponse`, `scoreSteps` — from the judge's text to a score for each step
* `blendReward`, `densifyTrajectory` — the dense reward of one trajectory

## Main results

* `blendReward_mem` — a failure is worth between `0` and `alpha`
* `judgedSteps_ok_iff` — step extraction completes exactly when every call can be read
* `scoreSteps_ok_iff` — scoring completes exactly when every cache key can be formed
* `densifyTrajectory_ok_iff` — densifying completes exactly on the `Scorable` histories
* `selectKeySteps_byPosition_iff` — when the key steps are selected by their positions
-/

namespace ToolAgent

namespace LlmJudge

open Python

/-! ### Configuration -/

/-- The fields of `JudgeConfig` that the pure logic reads. -/
structure JudgeConfig where
  /-- The ceiling of a failure's reward. -/
  alpha : ℚ := 1 / 5
  n_samples : ℤ := 3
  temperature : ℚ := 0
  max_step_chars : ℤ := 600
  only_key_steps : Bool := true
  domain : PyStr := "tau_bench"
  /-- The environment variable `LLM_JUDGE_WRITE_TOOLS`, which `get_write_tools` reads. -/
  write_tools_env : Option PyStr := none

/-- One criterion of a rubric. The weight is only ever printed. -/
structure Criterion where
  id : PyStr
  weight : PyStr
  desc : PyStr

def RUBRIC : List Criterion :=
  [⟨"tool_correctness", "0.25", "Right tool, valid arguments, no invalid/unknown tool calls."⟩,
    ⟨"info_gathering", "0.25",
      "Read enough (user/reservation/flights) before any irreversible write."⟩,
    ⟨"safe_irreversible", "0.2",
      "Did not execute a wrong/cancel/update/book; writes match the task."⟩,
    ⟨"task_progress", "0.2", "Net movement toward task completion."⟩,
    ⟨"no_hallucination", "0.1", "Did not fabricate tool results or entity values."⟩]

def BFCL_RUBRIC : List Criterion :=
  [⟨"function_selection", "0.3",
      "Called the function that matches the user's intent and the available toolset."⟩,
    ⟨"argument_correctness", "0.3",
      "Arguments have correct names, types, and values for the chosen function."⟩,
    ⟨"no_hallucination", "0.2",
      "Did not invent functions/arguments outside the toolset or fabricate observations."⟩,
    ⟨"progress", "0.2", "The call advances toward resolving the user's request."⟩]

def WRITE_TOOLS : List PyStr :=
  ["book_reservation", "cancel_reservation", "update_reservation_baggages",
    "update_reservation_passengers", "update_reservation_flights", "send_certificate"]

/-- `(domain or "tau_bench").strip().lower()`. -/
def domainKey (domain : PyStr) : PyStr :=
  lower (strip (if domain = [] then "tau_bench" else domain))

def getRubric (domain : PyStr) : List Criterion :=
  if domainKey domain = "bfcl" then BFCL_RUBRIC else RUBRIC

def envToolSet (raw : Option PyStr) (default : List PyStr) : List PyStr :=
  match raw with
  | none => default
  | some raw => ((splitOn (ch ',') raw).map strip).filter (· ≠ [])

def getWriteTools (config : JudgeConfig) : List PyStr :=
  envToolSet config.write_tools_env (if domainKey config.domain = "bfcl" then [] else WRITE_TOOLS)

def isWriteTool (toolName : PyStr) (writeTools : List PyStr) : Bool :=
  writeTools.contains "*" || writeTools.contains toolName

/-! ### Steps -/

/-- A step: one assistant turn and the texts of the messages up to the next one. -/
structure Step where
  assistant : PyStr
  tool_calls : List PyVal
  observations : List PyStr

/-- `==` on steps. -/
def Step.eq (a b : Step) : Bool :=
  a.assistant = b.assistant && PyVal.eqList a.tool_calls b.tool_calls &&
    a.observations = b.observations

/-- `str(msg.get("content", "") or "")`. -/
def contentText (py : Interp) (items : List (PyStr × PyVal)) : PyStr :=
  py.str ((dictGet items "content" (.str [])).or (.str []))

/-- One round of the loop of `extract_steps`: the steps closed so far and the open one. -/
def extractStep (py : Interp) (steps : List Step) (current : Option Step) :
    PyVal → Except PyErr (List Step × Option Step)
  | .dict items =>
    if dictGet items "role" = .str "assistant" then
      ((dictGet items "tool_calls").or (.list [])).iter.map fun calls =>
        (steps ++ current.toList, some ⟨contentText py items, calls, []⟩)
    else
      .ok (steps, current.map fun c =>
        { c with observations := c.observations ++ [contentText py items] })
  | _ => .ok (steps, current)

def extractLoop (py : Interp) (steps : List Step) (current : Option Step) :
    List PyVal → Except PyErr (List Step)
  | [] => .ok (steps ++ current.toList)
  | msg :: msgs => do
    let (steps, current) ← extractStep py steps current msg
    extractLoop py steps current msgs

def extractSteps (py : Interp) (messages : List PyVal) : Except PyErr (List Step) :=
  extractLoop py [] none messages

/-- The tool name a call carries, at its top level or under `function`. -/
def toolName? (py : Interp) (call : PyVal) : Except PyErr (Option PyStr) :=
  match call with
  | .dict _ => do
    let top ← call.get "name"
    let name ← if top.truthy then .ok top else do (← call.get "function" (.dict [])).get "name"
    .ok (if name.truthy then some (py.str name) else none)
  | _ => .ok none

def stepToolNames (py : Interp) (step : Step) : Except PyErr (List PyStr) := do
  .ok (← step.tool_calls.mapM (toolName? py)).reduceOption

/-- The loop of `select_key_steps`. `prev` is `steps[idx - 1]`. -/
def selectKeyLoop (py : Interp) (writeTools : List PyStr) (prev : Option Step) (key : List Step) :
    List Step → Except PyErr (List Step)
  | [] => .ok key
  | step :: steps => do
    let names ← stepToolNames py step
    let before := prev.toList.filter fun p => !key.any p.eq
    let key := if names.any (isWriteTool · writeTools) then key ++ before ++ [step] else key
    selectKeyLoop py writeTools (some step) key steps

/-- Writes and the step right before each; all steps if nothing was written. -/
def selectKeySteps (py : Interp) (steps : List Step) (writeTools : List PyStr) :
    Except PyErr (List Step) := do
  let key ← selectKeyLoop py writeTools none [] steps
  .ok (if key.isEmpty then steps else key)

/-- The steps that `densify_trajectory` has judged. -/
def judgedSteps (py : Interp) (config : JudgeConfig) (messages : List PyVal) :
    Except PyErr (List Step) := do
  let steps ← extractSteps py messages
  if config.only_key_steps then selectKeySteps py steps (getWriteTools config) else .ok steps

/-! ### Prompt and cache key -/

/-- The text that identifies a step in the cache. -/
def stepCacheText (py : Interp) (taskId : PyStr) (step : Step) (maxChars : ℤ) : PyStr :=
  taskId ++ "|" ++ sliceTo step.assistant maxChars ++ "|" ++ py.repr (.list step.tool_calls)

def stepCacheKey (py : Interp) (taskId : PyStr) (step : Step) (maxChars : ℤ) :
    Except PyErr PyStr :=
  let raw := stepCacheText py taskId step maxChars
  if encodable raw then .ok (py.md5 raw)
  else throw .unicodeEncodeError "surrogates not allowed"

def truncate (text : PyStr) (maxChars : ℤ) : PyStr :=
  if text.length ≤ maxChars then text else sliceTo text (maxChars - 16) ++ "...[truncated]"

/-- The system message and the user message of a prompt. -/
structure Prompt where
  system : PyStr
  user : PyStr

/-- `sep.join(parts)`. -/
def join (sep : PyStr) : List PyStr → PyStr
  | [] => []
  | [part] => part
  | part :: parts => part ++ sep ++ join sep parts

def buildStepPrompt (py : Interp) (taskId : PyStr) (step : Step) (rubric : List Criterion)
    (maxChars : ℤ) : Prompt :=
  let criteria := join "\n" (rubric.map fun r =>
    "- " ++ r.id ++ " (weight " ++ r.weight ++ "): " ++ r.desc)
  let domain : PyStr :=
    if rubric.any (·.id = "function_selection") then "BFCL multi-turn function-calling"
    else "tau-bench airline tool-use"
  { system := "You are a strict process judge for " ++ domain ++ " trajectories. " ++
      "You are NOT a reward model and must not consider whether the task ultimately succeeded. " ++
      "Score ONLY the quality of the single step shown, on [0,1]. " ++
      "Return ONLY JSON: \x7b\"score\": float, \"reason\": string\x7d.\n" ++
      "Criteria:\n" ++ criteria
    user := py.dumps (.dict
      [("task_id", .str taskId),
        ("assistant", .str (truncate step.assistant maxChars)),
        ("tool_calls", .list step.tool_calls),
        ("observations", .list (step.observations.map fun o => .str (truncate o maxChars)))]) }

/-! ### Scores -/

/-- `max(0.0, min(1.0, score))`. Both built-ins keep their first argument against a `nan`. -/
def clamp01 : PyFloat → ℚ
  | .fin q => max 0 (min 1 q)
  | .inf neg => if neg then 0 else 1
  | .nan => 1

/-- The JSON document of an answer: the text itself, else what stands between its outermost
braces. `none` when neither decodes; other exceptions of the decoder pass through. -/
def responseJson (py : Interp) (text : PyStr) : Except PyErr (Option PyVal) :=
  match loads py.recursionLimit text with
  | .ok data => .ok (some data)
  | .error e =>
    if e.caughtBy [.jsonDecodeError] then
      match braceSpan text with
      | none => .ok none
      | some span =>
        match loads py.recursionLimit span with
        | .ok data => .ok (some data)
        | .error e => if e.caughtBy [.jsonDecodeError] then .ok none else .error e
    else .error e

def parseJudgeResponse (py : Interp) (text : PyStr) : Except PyErr ℚ := do
  match ← responseJson py text with
  | none => .ok 0
  | some data =>
    let score ← data.get "score" (.float (.fin 0))
    match pyFloat score with
    | .ok x => .ok (clamp01 x)
    | .error e => if e.caughtBy [.typeError, .valueError] then .ok 0 else .error e

/-- A judge: its answer to the `k`-th call. -/
abbrev Judge := ℕ → Prompt → Except PyErr PyStr

/-- At temperature `0` the judge is deterministic and one sample is enough. -/
def effectiveNSamples (config : JudgeConfig) : ℕ :=
  if config.temperature = 0 then 1 else (max 1 config.n_samples).toNat

/-- One sample. A judge that cannot be reached scores `0`. -/
def sample (py : Interp) (judge : Judge) (prompt : Prompt) (k : ℕ) : Except PyErr ℚ :=
  match judge k prompt >>= parseJudgeResponse py with
  | .ok s => .ok s
  | .error e => if e.caughtBy [.osError, .valueError] then .ok 0 else .error e

/-- The ensemble for one prompt, starting with call `k`. -/
def samples (py : Interp) (judge : Judge) (prompt : Prompt) (k : ℕ) : ℕ → Except PyErr (List ℚ)
  | 0 => .ok []
  | n + 1 => do
    let s ← sample py judge prompt k
    (samples py judge prompt (k + 1) n).map (s :: ·)

/-- The loop of `score_steps`: the cache and the number of judge calls are threaded through. -/
def scoreSteps (py : Interp) (judge : Judge) (config : JudgeConfig) (taskId : PyStr)
    (cache : List (PyStr × ℚ)) (k : ℕ) : List Step → Except PyErr (List ℚ × ℕ)
  | [] => .ok ([], k)
  | step :: steps => do
    let key ← stepCacheKey py taskId step config.max_step_chars
    match cache.lookup key with
    | some value =>
      (scoreSteps py judge config taskId cache k steps).map fun r => (value :: r.1, r.2)
    | none =>
      let prompt := buildStepPrompt py taskId step (getRubric config.domain) config.max_step_chars
      let n := effectiveNSamples config
      let drawn ← samples py judge prompt k n
      let value := if drawn.isEmpty then 0 else drawn.sum / drawn.length
      (scoreSteps py judge config taskId ((key, value) :: cache) (k + n) steps).map fun r =>
        (value :: r.1, r.2)

/-- Outcome-anchored dense reward: `1` for a success, `alpha` times the mean score otherwise. -/
def blendReward (outcome : ℚ) (stepScores : List ℚ) (alpha : ℚ) : ℚ :=
  if 1 ≤ outcome then 1
  else if stepScores.isEmpty then 0
  else
    let clamped := stepScores.map fun s => max 0 (min 1 s)
    alpha * (clamped.sum / clamped.length)

/-- The dense reward of one trajectory, and the number of judge calls made when it is known. -/
def densifyTrajectory (py : Interp) (judge : Judge) (config : JudgeConfig) (outcome : ℚ)
    (messages : List PyVal) (taskId : PyStr) (k : ℕ) : Except PyErr (ℚ × ℕ) :=
  if 1 ≤ outcome then .ok (1, k)
  else do
    let steps ← judgedSteps py config messages
    if steps.isEmpty then .ok (0, k)
    else do
      let (scores, k) ← scoreSteps py judge config taskId [] k steps
      .ok (blendReward outcome scores config.alpha, k)

/-! ### The reward of a failure -/

theorem clamped_mean_mem {xs : List ℚ} (h : ∀ x ∈ xs, 0 ≤ x ∧ x ≤ 1) :
    0 ≤ xs.sum / xs.length ∧ xs.sum / xs.length ≤ 1 := by
  have h0 : 0 ≤ xs.sum := List.sum_nonneg fun x hx => (h x hx).1
  have h1 : xs.sum ≤ xs.length := by
    simpa using List.sum_le_card_nsmul xs 1 fun x hx => (h x hx).2
  exact ⟨by positivity, div_le_one_of_le₀ h1 (by positivity)⟩

/-- **Outcome anchoring, one trajectory.** Whatever the judge said, a failure is worth at most
`alpha`. -/
theorem blendReward_mem {outcome alpha : ℚ} {scores : List ℚ} (hout : outcome < 1)
    (ha : 0 ≤ alpha) :
    0 ≤ blendReward outcome scores alpha ∧ blendReward outcome scores alpha ≤ alpha := by
  rw [blendReward, if_neg (not_le.mpr hout)]
  split
  · exact ⟨le_rfl, ha⟩
  · have hclamped : ∀ x ∈ scores.map fun s => max 0 (min 1 s), 0 ≤ x ∧ x ≤ 1 := by
      intro x hx
      obtain ⟨s, -, rfl⟩ := List.mem_map.mp hx
      exact ⟨le_max_left _ _, max_le zero_le_one (min_le_left _ _)⟩
    obtain ⟨h0, h1⟩ := clamped_mean_mem hclamped
    exact ⟨mul_nonneg ha h0, mul_le_of_le_one_right ha h1⟩

theorem densifyTrajectory_mem {py : Interp} {judge : Judge} {config : JudgeConfig}
    {outcome dense : ℚ} {messages : List PyVal} {taskId : PyStr} {k k' : ℕ} (hout : outcome < 1)
    (ha : 0 ≤ config.alpha)
    (h : densifyTrajectory py judge config outcome messages taskId k = .ok (dense, k')) :
    0 ≤ dense ∧ dense ≤ config.alpha := by
  rw [densifyTrajectory, if_neg (not_le.mpr hout)] at h
  obtain ⟨steps, -, h⟩ := bind_eq_ok.mp h
  split at h
  · simp only [Except.ok.injEq, Prod.mk.injEq] at h
    rw [← h.1]
    exact ⟨le_rfl, ha⟩
  · obtain ⟨⟨scores, k₁⟩, -, h⟩ := bind_eq_ok.mp h
    simp only [Except.ok.injEq, Prod.mk.injEq] at h
    rw [← h.1]
    exact blendReward_mem hout ha

/-! ### When scoring completes -/

/-- The judge answers with texts that `parse_judge_response` accepts, or fails in one of the ways
that `score_steps` catches. -/
structure AnswersAccepted (py : Interp) (judge : Judge) : Prop where
  /-- Every text is accepted. -/
  text : ∀ k prompt text, judge k prompt = .ok text → ∃ s, parseJudgeResponse py text = .ok s
  /-- Every failure is caught. -/
  failure : ∀ k prompt e, judge k prompt = .error e → e.caughtBy [.osError, .valueError] = true

theorem AnswersAccepted.sample_ok {py : Interp} {judge : Judge} (h : AnswersAccepted py judge)
    (prompt : Prompt) (k : ℕ) : ∃ s, sample py judge prompt k = .ok s := by
  cases hj : judge k prompt with
  | error e => exact ⟨0, by simp [sample, hj, bind, Except.bind, h.failure k prompt e hj]⟩
  | ok text =>
    obtain ⟨s, hs⟩ := h.text k prompt text hj
    exact ⟨s, by simp [sample, hj, bind, Except.bind, hs]⟩

theorem AnswersAccepted.samples_ok {py : Interp} {judge : Judge} (h : AnswersAccepted py judge)
    (prompt : Prompt) (n : ℕ) : ∀ k, ∃ ss, samples py judge prompt k n = .ok ss := by
  induction n with
  | zero => exact fun k => ⟨[], rfl⟩
  | succ n ih =>
    intro k
    obtain ⟨s, hs⟩ := h.sample_ok prompt k
    obtain ⟨ss, hss⟩ := ih (k + 1)
    exact ⟨s :: ss, by simp [samples, hs, hss, bind, Except.bind, Except.map]⟩

theorem stepCacheKey_ok_iff (py : Interp) (taskId : PyStr) (step : Step) (maxChars : ℤ) :
    (∃ key, stepCacheKey py taskId step maxChars = .ok key) ↔
      encodable (stepCacheText py taskId step maxChars) = true := by
  by_cases he : encodable (stepCacheText py taskId step maxChars) = true
  · simp [stepCacheKey, he]
  · simp [stepCacheKey, he, Python.throw]

/-- Scoring completes exactly when every step has a cache key. The cache and the call counter
play no part. -/
theorem scoreSteps_ok_iff {py : Interp} {judge : Judge} (h : AnswersAccepted py judge)
    (config : JudgeConfig) (taskId : PyStr) (steps : List Step) :
    ∀ (cache : List (PyStr × ℚ)) (k : ℕ),
      (∃ r, scoreSteps py judge config taskId cache k steps = .ok r) ↔
        ∀ step ∈ steps,
          encodable (stepCacheText py taskId step config.max_step_chars) = true := by
  induction steps with
  | nil => exact fun cache k => by simp [scoreSteps]
  | cons step steps ih =>
    intro cache k
    rw [List.forall_mem_cons, ← stepCacheKey_ok_iff]
    cases hkey : stepCacheKey py taskId step config.max_step_chars with
    | error e => simp [scoreSteps, hkey, bind, Except.bind]
    | ok key =>
      cases hc : cache.lookup key with
      | some value =>
        rw [← ih cache k]
        simp only [scoreSteps, hkey, hc, bind, Except.bind, exists_map_eq_ok, Except.ok.injEq,
          exists_eq', true_and]
      | none =>
        obtain ⟨ss, hss⟩ := h.samples_ok
          (buildStepPrompt py taskId step (getRubric config.domain) config.max_step_chars)
          (effectiveNSamples config) k
        rw [← ih ((key, if ss.isEmpty then 0 else ss.sum / ss.length) :: cache)
          (k + effectiveNSamples config)]
        simp only [scoreSteps, hkey, hc, hss, bind, Except.bind, exists_map_eq_ok, Except.ok.injEq,
          exists_eq', true_and]

/-- Step extraction is total up to one thing: the `tool_calls` of an assistant message must be
falsy or iterable. -/
theorem extractSteps_ok_iff (py : Interp) (messages : List PyVal) :
    (∃ steps, extractSteps py messages = .ok steps) ↔
      ∀ items, PyVal.dict items ∈ messages → dictGet items "role" = .str "assistant" →
        ∃ calls, ((dictGet items "tool_calls").or (.list [])).iter = .ok calls := by
  suffices h : ∀ steps current, (∃ out, extractLoop py steps current messages = .ok out) ↔
      ∀ items, PyVal.dict items ∈ messages → dictGet items "role" = .str "assistant" →
        ∃ calls, ((dictGet items "tool_calls").or (.list [])).iter = .ok calls from h [] none
  induction messages with
  | nil => simp [extractLoop]
  | cons msg msgs ih =>
    intro steps current
    cases msg with
    | dict items =>
      by_cases hr : dictGet items "role" = .str "assistant"
      · cases hc : ((dictGet items "tool_calls").or (.list [])).iter with
        | error e => simp [extractLoop, extractStep, hr, hc, bind, Except.bind, Except.map]
        | ok calls =>
          simp [extractLoop, extractStep, hr, hc, bind, Except.bind, Except.map, ih,
            or_imp, forall_and]
      · simp [extractLoop, extractStep, hr, bind, Except.bind, ih, or_imp, forall_and]
    | _ => simp [extractLoop, extractStep, bind, Except.bind, ih]

/-- What the steps record of the tool calls is what the assistant messages carry. -/
theorem forall_calls_extractSteps {py : Interp} {messages : List PyVal} {out : List Step}
    (h : extractSteps py messages = .ok out) (P : List PyVal → Prop) :
    (∀ step ∈ out, P step.tool_calls) ↔
      ∀ items, PyVal.dict items ∈ messages → dictGet items "role" = .str "assistant" →
        ∀ calls, ((dictGet items "tool_calls").or (.list [])).iter = .ok calls → P calls := by
  suffices hloop : ∀ steps current, extractLoop py steps current messages = .ok out →
      ((∀ step ∈ out, P step.tool_calls) ↔
        (∀ step ∈ steps ++ current.toList, P step.tool_calls) ∧
        ∀ items, PyVal.dict items ∈ messages → dictGet items "role" = .str "assistant" →
          ∀ calls, ((dictGet items "tool_calls").or (.list [])).iter = .ok calls → P calls) by
    simpa using hloop [] none h
  clear h
  induction messages with
  | nil =>
    intro steps current h
    simp only [extractLoop, Except.ok.injEq] at h
    simp [h]
  | cons msg msgs ih =>
    intro steps current h
    rw [extractLoop] at h
    obtain ⟨⟨steps', current'⟩, hstep, hrest⟩ := bind_eq_ok.mp h
    rw [ih steps' current' hrest]
    cases msg with
    | dict items =>
      by_cases hr : dictGet items "role" = .str "assistant"
      · -- an assistant turn: the open step is closed and a new one opens with the turn's calls
        rw [extractStep, if_pos hr, map_eq_ok] at hstep
        obtain ⟨calls, hc, hstep⟩ := hstep
        simp only [Prod.mk.injEq] at hstep
        obtain ⟨rfl, rfl⟩ := hstep
        simp [or_imp, forall_and, hr, hc, and_assoc]
      · -- an observation: the calls of the open step stay
        rw [extractStep, if_neg hr] at hstep
        simp only [Except.ok.injEq, Prod.mk.injEq] at hstep
        obtain ⟨rfl, rfl⟩ := hstep
        cases current <;> simp [or_imp, forall_and, hr]
    | _ =>
      simp only [extractStep, Except.ok.injEq, Prod.mk.injEq] at hstep
      obtain ⟨rfl, rfl⟩ := hstep
      simp

/-- A call whose name can be looked up. `call.get("function", {})` is asked for a name, and a
`function` that is present but no dictionary has none to give. -/
def NameReadable : PyVal → Prop
  | .dict items =>
    (dictGet items "name").truthy = true ∨ (dictGet items "function" (.dict [])).isDict = true
  | _ => True

theorem toolName?_ok_iff (py : Interp) (call : PyVal) :
    (∃ name, toolName? py call = .ok name) ↔ NameReadable call := by
  cases call with
  | dict items =>
    cases htop : (dictGet items "name").truthy with
    | true => simp [toolName?, NameReadable, PyVal.get, htop, bind, Except.bind]
    | false =>
      cases hfun : dictGet items "function" (.dict []) <;>
        simp [toolName?, NameReadable, PyVal.get, htop, hfun, bind, Except.bind, PyVal.isDict]
  | _ => simp [toolName?, NameReadable]

theorem mapM_toolName?_ok_iff (py : Interp) (calls : List PyVal) :
    (∃ names, calls.mapM (toolName? py) = .ok names) ↔ ∀ call ∈ calls, NameReadable call := by
  induction calls with
  | nil => simp [pure, Except.pure]
  | cons call calls ih =>
    rw [List.forall_mem_cons, ← toolName?_ok_iff py call, ← ih, List.mapM_cons]
    cases hc : toolName? py call with
    | error e => simp [bind, Except.bind]
    | ok name =>
      cases hcs : calls.mapM (toolName? py) <;> simp [bind, Except.bind, pure, Except.pure]

theorem stepToolNames_ok_iff (py : Interp) (step : Step) :
    (∃ names, stepToolNames py step = .ok names) ↔ ∀ call ∈ step.tool_calls, NameReadable call := by
  rw [← mapM_toolName?_ok_iff py step.tool_calls]
  cases h : step.tool_calls.mapM (toolName? py) <;> simp [stepToolNames, h, bind, Except.bind]

theorem selectKeySteps_ok_iff (py : Interp) (steps : List Step) (writeTools : List PyStr) :
    (∃ key, selectKeySteps py steps writeTools = .ok key) ↔
      ∀ step ∈ steps, ∀ call ∈ step.tool_calls, NameReadable call := by
  suffices h : ∀ prev key, (∃ out, selectKeyLoop py writeTools prev key steps = .ok out) ↔
      ∀ step ∈ steps, ∀ call ∈ step.tool_calls, NameReadable call by
    rw [← h none []]
    cases hl : selectKeyLoop py writeTools none [] steps <;>
      simp [selectKeySteps, hl, bind, Except.bind]
  induction steps with
  | nil => simp [selectKeyLoop]
  | cons step steps ih =>
    intro prev key
    rw [List.forall_mem_cons, ← stepToolNames_ok_iff py step]
    cases hs : stepToolNames py step with
    | error e => simp [selectKeyLoop, hs, bind, Except.bind]
    | ok names => simp [selectKeyLoop, hs, bind, Except.bind, ih]

/-- An assistant message whose tool calls can be read: they are falsy or iterable, and where key
steps are selected each has a readable name. -/
def CallsReadable (config : JudgeConfig) (items : List (PyStr × PyVal)) : Prop :=
  ∃ calls, ((dictGet items "tool_calls").or (.list [])).iter = .ok calls ∧
    (config.only_key_steps = true → ∀ call ∈ calls, NameReadable call)

theorem judgedSteps_ok_iff (py : Interp) (config : JudgeConfig) (messages : List PyVal) :
    (∃ steps, judgedSteps py config messages = .ok steps) ↔
      ∀ items, PyVal.dict items ∈ messages → dictGet items "role" = .str "assistant" →
        CallsReadable config items := by
  have hext := extractSteps_ok_iff py messages
  cases hs : extractSteps py messages with
  | error e =>
    simp only [hs, reduceCtorEq, exists_const, false_iff] at hext
    have hraise : ¬∃ steps, judgedSteps py config messages = .ok steps := by
      simp [judgedSteps, hs, bind, Except.bind]
    refine iff_of_false hraise fun h => hext fun items hi hr => ?_
    obtain ⟨calls, hc, -⟩ := h items hi hr
    exact ⟨calls, hc⟩
  | ok steps =>
    have hiter := hext.mp ⟨steps, hs⟩
    have hcalls := forall_calls_extractSteps hs fun calls => ∀ call ∈ calls, NameReadable call
    have hkey : (∃ out, judgedSteps py config messages = .ok out) ↔
        (config.only_key_steps = true → ∀ step ∈ steps, ∀ call ∈ step.tool_calls,
          NameReadable call) := by
      cases hc : config.only_key_steps with
      | true =>
        simp [judgedSteps, hs, hc, bind, Except.bind,
          selectKeySteps_ok_iff py steps (getWriteTools config)]
      | false => simp [judgedSteps, hs, hc, bind, Except.bind]
    rw [hkey]
    constructor
    · intro h items hi hr
      obtain ⟨calls, hc⟩ := hiter items hi hr
      exact ⟨calls, hc, fun honly => hcalls.mp (h honly) items hi hr calls hc⟩
    · intro h honly
      refine hcalls.mpr fun items hi hr calls hc => ?_
      obtain ⟨calls', hc', hread⟩ := h items hi hr
      rw [hc, Except.ok.injEq] at hc'
      exact hc' ▸ hread honly

/-- A history that can be scored: every assistant message has readable calls, and the text that
each judged step is cached under has no lone surrogate. -/
structure Scorable (py : Interp) (config : JudgeConfig) (messages : List PyVal) (taskId : PyStr) :
    Prop where
  calls : ∀ items, PyVal.dict items ∈ messages → dictGet items "role" = .str "assistant" →
    CallsReadable config items
  text : ∀ steps, judgedSteps py config messages = .ok steps →
    ∀ step ∈ steps, encodable (stepCacheText py taskId step config.max_step_chars) = true

/-- **Densifying a failure completes exactly on the histories that can be scored.** -/
theorem densifyTrajectory_ok_iff {py : Interp} {judge : Judge} (h : AnswersAccepted py judge)
    (config : JudgeConfig) {outcome : ℚ} (hout : outcome < 1) (messages : List PyVal)
    (taskId : PyStr) (k : ℕ) :
    (∃ r, densifyTrajectory py judge config outcome messages taskId k = .ok r) ↔
      Scorable py config messages taskId := by
  have hsteps := judgedSteps_ok_iff py config messages
  rw [densifyTrajectory, if_neg (not_le.mpr hout)]
  cases hs : judgedSteps py config messages with
  | error e =>
    refine iff_of_false (by simp [bind, Except.bind]) fun hsc => ?_
    simpa [hs] using hsteps.mpr hsc.calls
  | ok steps =>
    have hcalls := hsteps.mp ⟨steps, hs⟩
    have hsc : Scorable py config messages taskId ↔
        ∀ step ∈ steps, encodable (stepCacheText py taskId step config.max_step_chars) = true :=
      ⟨fun hsc => hsc.text steps hs, fun ht => ⟨hcalls, fun _ hs' => by
        rw [hs, Except.ok.injEq] at hs'
        exact hs' ▸ ht⟩⟩
    rw [hsc]
    cases steps with
    | nil => simp [bind, Except.bind]
    | cons step steps =>
      rw [← scoreSteps_ok_iff h config taskId (step :: steps) [] k]
      cases hr : scoreSteps py judge config taskId [] k (step :: steps) <;>
        simp [hr, bind, Except.bind]

/-! ### The key steps, by position -/

section KeySteps

variable {py : Interp} {writeTools : List PyStr} {steps : List Step}

/-- The step calls a write tool. -/
def writes (py : Interp) (writeTools : List PyStr) (step : Step) : Bool :=
  match stepToolNames py step with
  | .ok names => names.any (isWriteTool · writeTools)
  | .error _ => false

/-- The steps that are meant: each write and each step right before one, by position, or all steps
if there is no write. -/
def keySteps (py : Interp) (writeTools : List PyStr) (steps : List Step) : List Step :=
  if steps.any (writes py writeTools) then Neighbours.byPosition (writes py writeTools) steps
  else steps

/-- The loop looks for the step before a write by its value. -/
theorem selectKeyLoop_eq (hnames : ∀ step ∈ steps, ∃ names, stepToolNames py step = .ok names) :
    ∀ (prev : Option Step) (key : List Step), selectKeyLoop py writeTools prev key steps =
      .ok (Neighbours.byValueLoop (writes py writeTools) Step.eq prev key steps) := by
  induction steps with
  | nil => exact fun _ _ => rfl
  | cons step steps ih =>
    intro prev key
    obtain ⟨⟨names, hstep⟩, hrest⟩ := List.forall_mem_cons.mp hnames
    have hwrites : writes py writeTools step = names.any (isWriteTool · writeTools) := by
      rw [writes, hstep]
    rw [selectKeyLoop, hstep, ok_bind, Neighbours.byValueLoop, hwrites]
    exact ih hrest _ _

theorem Step.eq_self {step : Step} (h : ∀ call ∈ step.tool_calls, call.DistinctKeys) :
    step.eq step = true := by
  have hcalls : PyVal.eqList step.tool_calls step.tool_calls = true := by
    refine PyVal.eqList_self _ ?_
    revert h
    generalize step.tool_calls = calls
    induction calls with
    | nil => exact fun _ => trivial
    | cons call calls ih =>
      intro h
      obtain ⟨hcall, hcalls⟩ := List.forall_mem_cons.mp h
      exact ⟨hcall, ih hcalls⟩
  rw [Step.eq, hcalls]
  simp

/-- Nothing is selected exactly when there is no write. -/
theorem byValue_eq_nil_iff {w : Step → Bool} : ∀ {steps : List Step},
    Neighbours.byValue w Step.eq steps = [] ↔ steps.any w = false := by
  intro steps
  induction steps using List.reverseRecOn with
  | nil => exact iff_of_true rfl rfl
  | append_singleton steps step ih =>
    rw [Neighbours.byValue_concat, List.any_append, List.any_cons, List.any_nil, Bool.or_false]
    rcases w step with - | -
    · rw [if_neg Bool.false_ne_true, Bool.or_false, ih]
    · simp

/-- **When the key steps are selected by their positions**: every name can be read, and no step that
is kept only because the next one writes equals a step that is kept before it. -/
theorem selectKeySteps_byPosition_iff (py : Interp) (writeTools : List PyStr)
    (hkeys : ∀ step ∈ steps, ∀ call ∈ step.tool_calls, call.DistinctKeys) :
    selectKeySteps py steps writeTools = .ok (keySteps py writeTools steps) ↔
      (∀ step ∈ steps, ∀ call ∈ step.tool_calls, NameReadable call) ∧
        Neighbours.NoTwin (writes py writeTools) Step.eq steps := by
  by_cases hread : ∀ step ∈ steps, ∀ call ∈ step.tool_calls, NameReadable call
  · have hnames : ∀ step ∈ steps, ∃ names, stepToolNames py step = .ok names := fun step hstep =>
      (stepToolNames_ok_iff py step).mpr (hread step hstep)
    have hself : ∀ step ∈ steps, Step.eq step step = true := fun step hstep =>
      Step.eq_self (hkeys step hstep)
    have hrun : selectKeySteps py steps writeTools =
        .ok (if (Neighbours.byValue (writes py writeTools) Step.eq steps).isEmpty then steps
          else Neighbours.byValue (writes py writeTools) Step.eq steps) := by
      rw [selectKeySteps, selectKeyLoop_eq hnames]
      rfl
    rw [hrun, and_iff_right hread, ← Neighbours.byValue_eq_iff steps hself, Except.ok.injEq, keySteps]
    rcases hany : steps.any (writes py writeTools) with - | -
    · -- no write: everything is judged, and nothing is selected by position either
      have hnil := byValue_eq_nil_iff.mpr hany
      have htwin : Neighbours.NoTwin (writes py writeTools) Step.eq steps :=
        Neighbours.noTwin_of_unmarked (List.any_eq_false.mp hany)
      rw [Neighbours.byValue_eq_iff steps hself]
      exact iff_of_true (by rw [hnil]; rfl) htwin
    · have hne : (Neighbours.byValue (writes py writeTools) Step.eq steps).isEmpty = false := by
        rw [List.isEmpty_eq_false_iff]
        intro hnil
        rw [byValue_eq_nil_iff.mp hnil] at hany
        cases hany
      rw [hne, if_neg Bool.false_ne_true, if_pos rfl]
  · have hraise := mt (selectKeySteps_ok_iff py steps writeTools).mp hread
    exact iff_of_false (fun h => hraise ⟨_, h⟩) fun h => hread h.1

def readStep : Step := ⟨[], [.dict [("name", .str "get_user_details")]], []⟩

def writeStep : Step := ⟨[], [.dict [("name", .str "cancel_reservation")]], []⟩

theorem selectKeySteps_byPosition_sample :
    (∀ step ∈ [readStep, writeStep], ∀ call ∈ step.tool_calls, NameReadable call) ∧
      Neighbours.NoTwin (writes .silent WRITE_TOOLS) Step.eq [readStep, writeStep] := by
  refine (selectKeySteps_byPosition_iff .silent WRITE_TOOLS fun step hstep call hcall => ?_).mp rfl
  simp only [List.mem_cons, List.not_mem_nil, or_false] at hstep
  rcases hstep with rfl | rfl
  · rw [List.mem_singleton.mp hcall]
    exact ⟨by decide, trivial, trivial⟩
  · rw [List.mem_singleton.mp hcall]
    exact ⟨by decide, trivial, trivial⟩

/-- The same read before two writes: the second one is dropped. -/
theorem selectKeySteps_drops_twin :
    keySteps .silent WRITE_TOOLS [readStep, writeStep, readStep, writeStep] =
        [readStep, writeStep, readStep, writeStep] ∧
      selectKeySteps .silent [readStep, writeStep, readStep, writeStep] WRITE_TOOLS =
        .ok [readStep, writeStep, writeStep] :=
  ⟨rfl, rfl⟩

end KeySteps

end LlmJudge

end ToolAgent
