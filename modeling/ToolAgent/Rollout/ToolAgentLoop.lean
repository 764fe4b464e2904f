import ToolAgent.Integration.AgentLoop
import Mathlib.Data.Rat.Cast.Order

/-!
# The tool agent loop

`ToolAgentLoop` of `verl.experimental.agent_loop.tool_agent_loop`, for text: the prompt is rendered,
and from there on the model generates, the tool calls in what it generated are executed, and their
responses are rendered and appended, until a limit is reached or no tool is called.

The server, the tokenizer with its chat template, the parser of tool calls and the tools are
parameters. A server and a tool may do anything to the world, and may raise. The calls of one turn
run together, so one parameter stands for all of them.

This is the default token mode. The continuous-token mode, and the path of a processor with images
and videos, are left out.

## Main definitions

* `AgentData`, `Loop` — the state of a rollout, and the attributes of the loop
* `Loop.callTools` — the calls of a turn, with the answers of those that reach no tool
* `Loop.pending`, `Loop.generating`, `Loop.processingTools`, `Loop.run` — the handlers and the
  method

## Main results

* `Loop.pending_cases`, `Loop.generating_cases`, `Loop.processingTools_cases` — what one step can do
-/

namespace ToolAgent

namespace ToolAgentLoop

open Python Prog AgentLoop

variable {σ : Type}

/-! ### Data -/

/-- `FunctionCall` of `tool_parser`. -/
structure FunctionCall where
  arguments : PyStr
  name : PyStr
  tool_call_id : Option PyStr := none
  deriving DecidableEq

structure ToolResponse where
  text : Option PyStr := none
  image : Option (List PyVal) := none
  video : Option (List PyVal) := none

/-- What a tool returns: its response and its reward. -/
structure Execution where
  response : ToolResponse
  reward : Option PyFloat

/-- A message with the role `tool`. -/
structure ToolMessage where
  content : PyStr
  tool_call_id : Option PyStr

def ToolMessage.toVal (message : ToolMessage) : PyVal :=
  let fields : List (PyStr × PyVal) := [("role", .str "tool"), ("content", .str message.content)]
  match message.tool_call_id with
  | none => .dict fields
  | some id => .dict (dictSet fields "tool_call_id" (.str id))

structure TokenOutput where
  token_ids : List ℤ
  log_probs : Option (List PyFloat) := none
  routed_experts : Option (List PyVal) := none
  num_preempted : Option ℤ := none
  extra_fields : List (PyStr × PyVal) := []

/-- The active tools are among the attributes. Those that tools add are part of the world. -/
structure AgentData where
  messages : List PyVal
  request_id : PyStr
  tools_kwargs : PyVal
  active_tools : List (PyStr × PyVal)
  num_preempted : Option ℤ := none
  prompt_ids : List ℤ := []
  response_ids : List ℤ := []
  response_mask : List ℤ := []
  response_logprobs : List PyFloat := []
  turn_scores : List PyFloat := []
  tool_rewards : List PyFloat := []
  user_turns : ℕ := 0
  assistant_turns : ℕ := 0
  tool_calls : List FunctionCall := []
  routed_experts : Option (List PyVal) := none
  extra_fields : List (PyStr × PyVal) := []

structure Output where
  prompt_ids : List ℤ
  response_ids : List ℤ
  response_mask : List ℤ
  response_logprobs : Option (List PyFloat)
  routed_experts : Option (List PyVal)
  num_turns : ℕ
  num_preempted : Option ℤ
  extra_fields : List (PyStr × PyVal)

/-- What the loop asks of a tokenizer. -/
structure Tokenizer where
  /-- `apply_chat_template(messages, tokenize=True, tools=..., add_generation_prompt=...)` -/
  template : List PyVal → Option PyVal → Bool → Except PyErr (List ℤ)
  /-- `encode(text, add_special_tokens=False)` -/
  encode : PyStr → Except PyErr (List ℤ)

/-- The attributes of the loop, and what it calls. -/
structure Loop (σ : Type) where
  max_user_turns : Option ℤ
  max_assistant_turns : Option ℤ
  max_parallel_calls : ℤ
  max_tool_response_length : ℤ
  tool_response_truncate_side : PyStr
  /-- The tools, under their names, with their schemas. -/
  tools : List (PyStr × PyVal)
  tool_parser_name : PyStr
  prompt_length : ℕ
  response_length : ℕ
  system_prompt : List ℤ
  turn_separator : List ℤ
  tokenizer : Tokenizer
  generate : PyStr → List ℤ → Prog PyErr σ TokenOutput
  extract_tool_calls : List ℤ → List PyVal → Except PyErr (PyStr × List FunctionCall)
  /-- The calls of a turn that reach their tools, by their places in the turn. It raises when a tool
  cannot be released, and may store in `extra_fields`. -/
  gather : List (ℕ × PyStr × PyVal) → AgentData →
    Prog PyErr σ ((ℕ → Except PyErr Execution) × List (PyStr × PyVal))

variable (py : Interp) (loop : Loop σ)

/-! ### Rendering -/

def dummyUserMessage : List PyVal :=
  [.dict [("role", .str "user"),
    ("content", .list [.dict [("type", .str "text"), ("text", .str "")]])]]

/-- `apply_chat_template` of `verl.utils.tokenizer`: a template that insists on a user message is
given one, whose tokens are dropped. -/
def Tokenizer.apply (tokenizer : Tokenizer) (messages : List PyVal) (tools : Option PyVal) :
    Except PyErr (List ℤ) :=
  match tokenizer.template messages tools true with
  | .ok ids => .ok ids
  | .error _ => do
    let dummy_user_prefix ← tokenizer.template dummyUserMessage tools false
    let output ← tokenizer.template (dummyUserMessage ++ messages) tools true
    .ok (output.drop dummy_user_prefix.length)

/-- `_cap_text_prompt_length` -/
def Loop.capTextPromptLength (ids : List ℤ) : List ℤ :=
  if loop.prompt_length < ids.length then sliceFrom ids (-loop.prompt_length) else ids

/-- `AgentLoopBase.apply_chat_template` -/
def Loop.applyChatTemplate (messages : List PyVal) (tools : Option PyVal)
    (remove_system_prompt : Bool) : Except PyErr (List ℤ) := do
  let ids ← loop.tokenizer.apply messages tools
  let ids := if remove_system_prompt then ids.drop loop.system_prompt.length else ids
  .ok (loop.capTextPromptLength ids)

/-- `build_gpt_oss_tool_response_text` -/
def buildGptOssToolResponseText (messages : List ToolMessage) (names : List PyStr) : PyStr :=
  ((messages.zip names).flatMap fun (message, name) =>
    PyStr.ofString "<|start|>functions." ++ name ++
      PyStr.ofString " to=assistant<|channel|>commentary<|message|>" ++ message.content ++
      PyStr.ofString "<|end|>") ++ PyStr.ofString "<|start|>assistant"

def gemma4ToolResponseText (messages : List ToolMessage) (names : List PyStr) : PyStr :=
  (messages.zip names).flatMap fun (message, name) =>
    PyStr.ofString "<|tool_response>response:" ++ name ++ PyStr.ofString "\x7bvalue:<|\"|>" ++
      message.content ++ PyStr.ofString "<|\"|>\x7d<tool_response|>"

/-- The tokens of the tool messages of a turn, up to the next generation. -/
def Loop.observationIds (messages : List ToolMessage) (names : List PyStr) :
    Except PyErr (List ℤ) :=
  if loop.tool_parser_name = "gpt-oss" then
    loop.tokenizer.encode (buildGptOssToolResponseText messages names)
  else if loop.tool_parser_name = "gemma4" then
    loop.tokenizer.encode (gemma4ToolResponseText messages names)
  else do
    let ids ← loop.applyChatTemplate (messages.map ToolMessage.toVal) none true
    .ok (loop.turn_separator ++ ids)

/-! ### Tool calls -/

/-- A text longer than the limit is cut at one side, or in the middle. -/
def Loop.truncateText (text : PyStr) : PyStr :=
  if text ≠ [] ∧ loop.max_tool_response_length < text.length then
    if loop.tool_response_truncate_side = "left" then
      PyStr.ofString "(truncated)..." ++ sliceFrom text (-loop.max_tool_response_length)
    else if loop.tool_response_truncate_side = "right" then
      sliceTo text loop.max_tool_response_length ++ PyStr.ofString "...(truncated)"
    else
      let length := loop.max_tool_response_length / 2
      sliceTo text length ++ PyStr.ofString "...(truncated)..." ++ sliceFrom text (-length)
  else text

/-- The arguments of a call that reaches its tool, or the answer to one that does not. -/
def checkCall (active_tools : List (PyStr × PyVal)) (call : FunctionCall) :
    Except PyErr (Except PyStr PyVal) :=
  let available := active_tools.map Prod.fst
  if !available.contains call.name then
    .ok (.error ("Unknown function '" ++ call.name ++ PyStr.ofString "'. Available tools: " ++
      py.repr (.list (available.map .str))))
  else
    match loads py.recursionLimit call.arguments with
    | .ok args => .ok (.ok args)
    | .error e =>
      if e.caughtBy [.jsonDecodeError, .typeError] then
        .ok (.error ("Invalid JSON in arguments for '" ++ call.name ++ PyStr.ofString "': " ++ e.msg))
      else .error e

/-- The end of `_call_tool`, for what the tool did. -/
def Loop.finishCall (name : PyStr) : Except PyErr Execution → ToolResponse × Option PyFloat
  | .error e => ({ text := some ("Error executing tool '" ++ name ++ PyStr.ofString "': " ++ e.msg) },
      some (.fin 0))
  | .ok execution => ({ execution.response with
      text := execution.response.text.map loop.truncateText }, execution.reward)

/-- `asyncio.gather` of `_call_tool` for the calls of a turn. -/
def Loop.callTools (calls : List FunctionCall) (data : AgentData) :
    Prog PyErr σ (List (ToolResponse × Option PyFloat) × List (PyStr × PyVal)) := do
  let checks ← lift (calls.mapM (checkCall py data.active_tools))
  let checked := (calls.zip checks).zipIdx
  let (outcome, extra_fields) ← loop.gather (checked.filterMap fun ((call, check), i) =>
    check.toOption.map fun args => (i, call.name, args)) data
  pure (checked.map fun ((call, check), i) =>
    match check with
    | .error msg => ({ text := some msg }, some (.fin 0))
    | .ok _ => loop.finishCall call.name (outcome i), extra_fields)

/-- The message of a response. Without a `processor` there is none for images and videos. -/
def toolMessage (call : FunctionCall) (response : ToolResponse) : Except PyErr ToolMessage :=
  if response.image.getD [] ≠ [] ∨ response.video.getD [] ≠ [] then
    throw .valueError ("Multimedia data can only be processed by `processor`, but the processor is " ++
      "None. This error is often caused if you are using a LLM model but your tool returns " ++
      "multimodal data. Plase use a vlm as the base model.")
  else .ok ⟨response.text.getD [], call.tool_call_id⟩

/-! ### The handlers -/

/-- The sum of the preemptions. The first output sets it, to `-1` if it has none. -/
def countPreempted (metric output : Option ℤ) : Option ℤ :=
  match metric with
  | none => some (output.getD (-1))
  | some n => some (n + output.getD 0)

def specDecodeExtraKeys : List PyStr :=
  ["spec_num_draft_tokens", "spec_num_accepted_tokens", "spec_num_verify_steps"]

/-- The extra fields of the first output, and of the others the last step and the counts of
speculative decoding. -/
def mergeExtraFields (fields output : List (PyStr × PyVal)) :
    Except PyErr (List (PyStr × PyVal)) :=
  if fields = [] then .ok output
  else
    let max_global_steps := dictGet output "max_global_steps"
    let fields :=
      if max_global_steps.truthy then dictSet fields "max_global_steps" max_global_steps else fields
    specDecodeExtraKeys.foldlM (fun fields key =>
      match output.lookup key, fields.lookup key with
      | some new, some old => do
        let old ← pyInt old
        let new ← pyInt new
        .ok (dictSet fields key (.int (old + new)))
      | _, _ => .ok fields) fields

/-- What a generation adds to the record. -/
def AgentData.generate (data : AgentData) (output : TokenOutput)
    (extra_fields : List (PyStr × PyVal)) : AgentData :=
  { data with
    num_preempted := countPreempted data.num_preempted output.num_preempted
    extra_fields := extra_fields
    assistant_turns := data.assistant_turns + 1
    response_ids := output.token_ids
    prompt_ids := data.prompt_ids ++ output.token_ids
    response_mask := data.response_mask ++ List.replicate output.token_ids.length 1
    response_logprobs := data.response_logprobs ++ output.log_probs.getD []
    routed_experts := output.routed_experts.or data.routed_experts }

/-- What the responses of a turn add, apart from their tokens. -/
def AgentData.respond (data : AgentData) (messages : List ToolMessage) (rewards : List PyFloat)
    (extra_fields : List (PyStr × PyVal)) : AgentData :=
  { data with
    messages := data.messages ++ messages.map ToolMessage.toVal
    tool_rewards := data.tool_rewards ++ rewards
    extra_fields := extra_fields }

/-- What their tokens add. -/
def AgentData.observe (data : AgentData) (ids : List ℤ) : AgentData :=
  { data with
    prompt_ids := data.prompt_ids ++ ids
    response_mask := data.response_mask ++ List.replicate ids.length 0
    response_logprobs :=
      if data.response_logprobs = [] then []
      else data.response_logprobs ++ List.replicate ids.length (.fin 0)
    user_turns := data.user_turns + 1 }

/-- A limit that is set, and not to zero, is reached. -/
def reached (limit : Option ℤ) (turns : ℕ) : Bool :=
  match limit with
  | none => false
  | some limit => limit ≠ 0 ∧ limit ≤ turns

/-- The termination conditions after a generation. -/
def Loop.mustEnd (data : AgentData) : Bool :=
  loop.response_length ≤ data.response_mask.length ||
    reached loop.max_assistant_turns data.assistant_turns || reached loop.max_user_turns
      data.user_turns

abbrev Handler (σ : Type) := AgentData → Prog PyErr σ (AgentState × AgentData)

/-- `_handle_pending_state` -/
def Loop.pending : Handler σ := fun data => do
  let prompt_ids ← lift
    (loop.applyChatTemplate data.messages (some (.list (data.active_tools.map Prod.snd))) false)
  pure (.generating, { data with prompt_ids })

/-- `_handle_generating_state` -/
def Loop.generating : Handler σ := fun data => do
  let output ← loop.generate data.request_id data.prompt_ids
  let extra_fields ← lift (mergeExtraFields data.extra_fields output.extra_fields)
  let data := data.generate output extra_fields
  if loop.mustEnd data then pure (.terminated, data)
  else do
    let (_, tool_calls) ← lift
      (loop.extract_tool_calls data.response_ids (data.active_tools.map Prod.snd))
    pure (if tool_calls = [] then .terminated else .processing_tools, { data with tool_calls })

/-- `_handle_processing_tools_state` -/
def Loop.processingTools : Handler σ := fun data => do
  let calls := sliceTo data.tool_calls loop.max_parallel_calls
  let (responses, extra_fields) ← loop.callTools py calls data
  let messages ← lift ((calls.zip responses).mapM fun (call, response) => toolMessage call response.1)
  let data := data.respond messages (responses.filterMap Prod.snd) extra_fields
  let ids ← lift (loop.observationIds messages (calls.map FunctionCall.name))
  if loop.response_length ≤ data.response_mask.length + ids.length then pure (.terminated, data)
  else pure (.generating, data.observe ids)

def Loop.handle : AgentState → Handler σ
  | .pending => loop.pending
  | .generating => loop.generating
  | .processing_tools => loop.processingTools py
  | .terminated => fun data => pure (.terminated, data)

/-- The `while` loop, for the rounds that are left. Without a result it is still running. -/
def Loop.whileLoop : ℕ → AgentState → AgentData → Prog PyErr σ (Option AgentData)
  | 0, state, data => pure (if state = .terminated then some data else none)
  | rounds + 1, state, data =>
    if state = .terminated then pure (some data)
    else do
      let (state, data) ← loop.handle py state data
      whileLoop rounds state data

/-! ### The method -/

/-- The tools of a sample: those of its selection, if it has one. -/
def Loop.activeTools (tool_selection : List PyStr) : List (PyStr × PyVal) :=
  if tool_selection = [] ∨ loop.tools = [] then loop.tools
  else tool_selection.foldl (fun selected name =>
    match loop.tools.lookup name with
    | none => selected
    | some tool => dictSet selected name tool) []

/-- What the output is built from. -/
def Loop.output (data : AgentData) : Output :=
  let response_ids := sliceFrom data.prompt_ids (-data.response_mask.length)
  let prompt_ids := sliceTo data.prompt_ids (data.prompt_ids.length - data.response_mask.length : ℤ)
  let floats := fun xs : List PyFloat => PyVal.list (xs.map fun x => PyVal.float x)
  { prompt_ids
    response_ids := response_ids.take loop.response_length
    response_mask := data.response_mask.take loop.response_length
    response_logprobs :=
      if data.response_logprobs = [] then none
      else some (data.response_logprobs.take loop.response_length)
    routed_experts := data.routed_experts.map fun experts =>
      experts.take (prompt_ids.length + loop.response_length)
    num_turns := data.user_turns + data.assistant_turns + 1
    num_preempted := data.num_preempted
    extra_fields := dictSet (dictSet data.extra_fields "turn_scores" (floats data.turn_scores))
      "tool_rewards" (floats data.tool_rewards) }

/-- The data that a run starts with. -/
def Loop.start (request_id : PyStr) (messages : List PyVal) (tools_kwargs : PyVal)
    (tool_selection : List PyStr) : AgentData :=
  { messages, request_id, tools_kwargs, active_tools := loop.activeTools tool_selection }

def Loop.run (request_id : PyStr) (messages : List PyVal) (tools_kwargs : PyVal)
    (tool_selection : List PyStr) (rounds : ℕ) : Prog PyErr σ (Option Output) := do
  let data ← loop.whileLoop py rounds .pending
    (loop.start request_id messages tools_kwargs tool_selection)
  pure (data.map loop.output)

/-! ### What one step can do -/

section Steps

variable {py : Interp} {loop : Loop σ} {data data' : AgentData} {state : AgentState} {s s' : σ}

theorem Loop.pending_cases (h : loop.pending data s = (.ok (state, data'), s')) :
    ∃ ids, loop.applyChatTemplate data.messages (some (.list (data.active_tools.map Prod.snd)))
        false = .ok ids ∧ state = .generating ∧ data' = { data with prompt_ids := ids } := by
  obtain ⟨ids, s₁, hids, hrest⟩ := bind_run_ok.mp h
  obtain ⟨rfl, rfl⟩ := Prod.mk.inj (Except.ok.inj (Prod.mk.inj hrest).1)
  exact ⟨ids, (lift_run_ok.mp hids).1, rfl, rfl⟩

theorem Loop.generating_cases (h : loop.generating data s = (.ok (state, data'), s')) :
    ∃ output fields, (∃ s s', loop.generate data.request_id data.prompt_ids s = (.ok output, s')) ∧
      ((state = .terminated ∧ data' = data.generate output fields) ∨
        loop.mustEnd (data.generate output fields) = false ∧ ∃ content calls,
          loop.extract_tool_calls output.token_ids (data.active_tools.map Prod.snd) =
            .ok (content, calls) ∧
          data' = { data.generate output fields with tool_calls := calls } ∧
          state = if calls = [] then .terminated else .processing_tools) := by
  obtain ⟨output, s₁, houtput, hrest⟩ := bind_run_ok.mp h
  obtain ⟨fields, s₂, -, hrest⟩ := bind_run_ok.mp hrest
  refine ⟨output, fields, ⟨s, s₁, houtput⟩, ?_⟩
  dsimp only at hrest
  split at hrest
  · obtain ⟨rfl, rfl⟩ := Prod.mk.inj (Except.ok.inj (Prod.mk.inj hrest).1)
    exact .inl ⟨rfl, rfl⟩
  · next hend =>
    obtain ⟨⟨content, calls⟩, s₃, hcalls, hrest⟩ := bind_run_ok.mp hrest
    obtain ⟨rfl, rfl⟩ := Prod.mk.inj (Except.ok.inj (Prod.mk.inj hrest).1)
    exact .inr ⟨Bool.eq_false_iff.mpr hend, content, calls, (lift_run_ok.mp hcalls).1, rfl, rfl⟩

/-- There is one response for each call. -/
theorem Loop.length_callTools {calls : List FunctionCall}
    {responses : List (ToolResponse × Option PyFloat)} {fields : List (PyStr × PyVal)}
    (h : loop.callTools py calls data s = (.ok (responses, fields), s')) :
    responses.length = calls.length := by
  obtain ⟨checks, s₁, hchecks, hrest⟩ := bind_run_ok.mp h
  obtain ⟨⟨outcome, fields'⟩, s₂, -, hrest⟩ := bind_run_ok.mp hrest
  obtain ⟨rfl, -⟩ := Prod.mk.inj (Except.ok.inj (Prod.mk.inj hrest).1)
  have hlength := length_of_mapM (lift_run_ok.mp hchecks).1
  simp [hlength]

theorem toolMessage_id {call : FunctionCall} {response : ToolResponse} {message : ToolMessage}
    (h : toolMessage call response = .ok message) : message.tool_call_id = call.tool_call_id := by
  rw [toolMessage] at h
  split at h
  · cases h
  · rw [← Except.ok.inj h]

/-- The messages are what some execution of the calls answers, with these tools. -/
def Loop.Answers (py : Interp) (loop : Loop σ) (active_tools : List (PyStr × PyVal))
    (calls : List FunctionCall) (messages : List ToolMessage) : Prop :=
  ∃ data s s' responses fields, data.active_tools = active_tools ∧
    loop.callTools py calls data s = (.ok (responses, fields), s') ∧
    ((calls.zip responses).mapM fun (call, response) => toolMessage call response.1) = .ok messages

/-- The messages answer the calls in their order. -/
theorem Loop.Answers.ids {active_tools : List (PyStr × PyVal)} {calls : List FunctionCall}
    {messages : List ToolMessage} (h : loop.Answers py active_tools calls messages) :
    messages.map ToolMessage.tool_call_id = calls.map FunctionCall.tool_call_id := by
  obtain ⟨data, s, s', responses, fields, -, hcalls, hmessages⟩ := h
  have hlength := length_callTools hcalls
  clear hcalls
  induction calls generalizing responses messages with
  | nil =>
    obtain rfl : messages = [] := by simpa [pure, Except.pure] using hmessages.symm
    rfl
  | cons call calls ih =>
    obtain _ | ⟨response, responses⟩ := responses
    · simp at hlength
    · rw [List.zip_cons_cons, List.mapM_cons] at hmessages
      obtain ⟨message, hmessage, hrest⟩ := bind_eq_ok.mp hmessages
      obtain ⟨messages', hmessages', hpure⟩ := bind_eq_ok.mp hrest
      obtain rfl := Except.ok.inj hpure
      rw [List.map_cons, List.map_cons, toolMessage_id hmessage,
        ih responses hmessages' (by simpa using hlength)]

theorem Loop.processingTools_cases (h : loop.processingTools py data s = (.ok (state, data'), s')) :
    ∃ messages rewards fields ids,
      loop.Answers py data.active_tools (sliceTo data.tool_calls loop.max_parallel_calls) messages ∧
      loop.observationIds messages
        ((sliceTo data.tool_calls loop.max_parallel_calls).map FunctionCall.name) = .ok ids ∧
      ((state = .terminated ∧ data' = data.respond messages rewards fields) ∨
        data.response_mask.length + ids.length < loop.response_length ∧ state = .generating ∧
          data' = (data.respond messages rewards fields).observe ids) := by
  obtain ⟨⟨responses, fields⟩, s₁, hcalls, hrest⟩ := bind_run_ok.mp h
  obtain ⟨messages, s₂, hmessages, hrest⟩ := bind_run_ok.mp hrest
  obtain ⟨ids, s₃, hids, hrest⟩ := bind_run_ok.mp hrest
  refine ⟨messages, responses.filterMap Prod.snd, fields, ids,
    ⟨data, s, s₁, responses, fields, rfl, hcalls, (lift_run_ok.mp hmessages).1⟩,
    (lift_run_ok.mp hids).1, ?_⟩
  split at hrest
  · obtain ⟨rfl, rfl⟩ := Prod.mk.inj (Except.ok.inj (Prod.mk.inj hrest).1)
    exact .inl ⟨rfl, rfl⟩
  · next hfits =>
    obtain ⟨rfl, rfl⟩ := Prod.mk.inj (Except.ok.inj (Prod.mk.inj hrest).1)
    exact .inr ⟨not_le.mp hfits, rfl, rfl⟩

end Steps

/-! ### A small loop -/

def sampleText : PyVal → List ℤ
  | .dict items =>
    match dictGet items "content" with
    | .str s => s.map Int.ofNat
    | _ => []
  | _ => []

/-- A message opens with `1` if it is the assistant's, and with `4` otherwise. It ends with the
closing token `2` and the separator `3`. -/
def sampleFrame (message : PyVal) : List ℤ :=
  let opening :=
    match message with
    | .dict items => if dictGet items "role" = .str "assistant" then 1 else 4
    | _ => 4
  opening :: sampleText message ++ [2, 3]

/-- A conversation begins with `9` if there are tools, and with `8` if not. -/
def sampleRender (tools : Option PyVal) (messages : List PyVal) (opened : Bool) : List ℤ :=
  (if tools.isSome then 9 else 8) :: messages.flatMap sampleFrame ++ if opened then [1] else []

def sampleMessages : List PyVal := [.dict [("role", .str "user"), ("content", .str "hi")]]

/-- The model calls a tool with its first generation. -/
def sampleLoop : Loop ℕ where
  max_user_turns := none
  max_assistant_turns := none
  max_parallel_calls := 1
  max_tool_response_length := 256
  tool_response_truncate_side := "middle"
  tools := [("lookup", .null)]
  tool_parser_name := "hermes"
  prompt_length := 16
  response_length := 16
  system_prompt := [8]
  turn_separator := [3]
  tokenizer := ⟨fun messages tools opened => .ok (sampleRender tools messages opened),
    fun text => .ok (text.map Int.ofNat)⟩
  generate := fun _ _ n =>
    (.ok ⟨[if n = 0 then 7 else 6, 2], some [.fin (-1), .fin 0], none, none, []⟩, n + 1)
  extract_tool_calls := fun ids _ =>
    .ok ([], if ids = [7, 2] then [⟨"\x7b\x7d", "lookup", none⟩] else [])
  gather := fun _ data => pure (fun _ => .ok ⟨{ text := some "ok" }, none⟩, data.extra_fields)

def sampleOutput : Output where
  prompt_ids := [9, 4, 104, 105, 2, 3, 1]
  response_ids := [7, 2, 3, 4, 111, 107, 2, 3, 1, 6, 2]
  response_mask := [1, 1, 0, 0, 0, 0, 0, 0, 0, 1, 1]
  response_logprobs := some [.fin (-1), .fin 0, .fin 0, .fin 0, .fin 0, .fin 0, .fin 0,
    .fin 0, .fin 0,
    .fin (-1), .fin 0]
  routed_experts := none
  num_turns := 4
  num_preempted := some (-1)
  extra_fields := [("turn_scores", .list []), ("tool_rewards", .list [])]

end ToolAgentLoop

end ToolAgent
