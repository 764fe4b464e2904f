import ToolAgent.Library.Prog
import ToolAgent.Python.Builtins

/-!
# The agent loop

`TauBenchToolAgentLoop.run` of `toolagent.verl_integration.agent_loop`: an interaction is started,
its first message is read, an `AgentData` is built, and from there on a `finally` clause sees to it
that the interaction is finalized.

The handlers of the states, the environment behind the interaction, the score and the validation of
the output are parameters. Each may do anything to the world, and may raise.

## The constructor

`AgentData` is the class of `verl.experimental.agent_loop.tool_agent_loop`. It has no parameter
`interaction`, so the call raises, and it stands between the registration of the interaction and the
`finally` clause. The model of `run` takes the parameters of the class as an argument, so that a
class with such a parameter can be compared with the one that is there.

## Main definitions

* `startInteraction`, `getInitialResponse`, `finalizeInteraction` — the table of interactions
* `AgentData.init` — the constructor, for the parameters of a class
* `runWith`, `run` — the method, for any class and for the one of `verl`

## Main results

* `runWith_entry` — a run leaves its entry behind exactly when the constructor raises
* `run_clean_iff` — with the class of `verl` a run that registers its interaction leaves it behind
-/

namespace ToolAgent

namespace AgentLoop

open Python Prog

variable {σ ε : Type}

/-! ### Interactions -/

/-- An entry of `_instance_dict`. The session stands for the environment and the state. -/
structure Entry (ε : Type) where
  session : ε
  initial_user_response : PyStr

/-- The table of the interaction, and the rest of the world. -/
structure Store (σ ε : Type) where
  instance_dict : PyStr → Option (Entry ε)
  world : σ

/-- What an interaction does to the world. -/
structure Interaction (σ ε : Type) where
  /-- `start_interaction`, up to the registration. -/
  begin : PyStr → List (PyStr × PyVal) → Prog PyErr σ (Entry ε)
  /-- `bool(entry["state"].get("done"))` -/
  done : ε → σ → Bool
  /-- `calculate_score` of a known instance. -/
  score : ε → Prog PyErr σ PyVal
  /-- The end of `finalize_interaction`: the trace is written. -/
  write_trace : ε → Prog PyErr σ Unit

abbrev StoreProg (σ ε : Type) := Prog PyErr (Store σ ε)

def onWorld {α : Type} (m : Prog PyErr σ α) : StoreProg σ ε α :=
  zoom Store.world (fun s world => { s with world := world }) m

/-- `self._instance_dict[instance_id] = entry`, or its removal. -/
def setEntry (instanceId : PyStr) (entry : Option (Entry ε)) : StoreProg σ ε Unit :=
  modify fun s => { s with instance_dict := Function.update s.instance_dict instanceId entry }

def startInteraction (interaction : Interaction σ ε) (instanceId : PyStr)
    (kwargs : List (PyStr × PyVal)) : StoreProg σ ε Unit := do
  if kwargs.any (·.1 = "instance_id") then
    raise ⟨.typeError, "start_interaction() got multiple values for argument 'instance_id'"⟩
  else do
    let entry ← onWorld (interaction.begin instanceId kwargs)
    setEntry instanceId (some entry)

def getInitialResponse (instanceId : PyStr) : StoreProg σ ε PyStr := do
  let s ← get
  match s.instance_dict instanceId with
  | none => raise ⟨.runtimeError, "Unknown instance_id=" ++ instanceId⟩
  | some entry => pure entry.initial_user_response

def isDone (interaction : Interaction σ ε) (instanceId : PyStr) (s : Store σ ε) : Bool :=
  match s.instance_dict instanceId with
  | none => false
  | some entry => interaction.done entry.session s.world

def calculateScore (interaction : Interaction σ ε) (instanceId : PyStr) : StoreProg σ ε PyVal := do
  let s ← get
  match s.instance_dict instanceId with
  | none => pure (.dict [("score", .float (.fin 0)), ("outcome_score", .float (.fin 0))])
  | some entry => onWorld (interaction.score entry.session)

def finalizeInteraction (interaction : Interaction σ ε) (instanceId : PyStr) :
    StoreProg σ ε Unit := do
  let s ← get
  setEntry instanceId none
  match s.instance_dict instanceId with
  | none => pure ()
  | some entry => onWorld (interaction.write_trace entry.session)

/-! ### Agent data -/

/-- `func(**kwargs)` for a function whose parameters have no defaults. -/
def bindKeywords (func : PyStr) (params passed : List PyStr) : Except PyErr Unit :=
  match passed.find? fun key => !params.contains key with
  | some key => .error ⟨.typeError, func ++ " got an unexpected keyword argument '" ++ key ++ "'"⟩
  | none =>
    if params.all passed.contains then .ok ()
    else .error ⟨.typeError, func ++ " missing required positional arguments"⟩

/-- The attributes of an `AgentData` that `run` reads. -/
structure AgentData where
  messages : List PyVal
  image_data : PyVal
  metrics : PyVal
  request_id : PyStr
  tools_kwargs : PyVal
  prompt_ids : List ℤ := []
  response_mask : List ℤ := []
  response_logprobs : List PyFloat := []
  turn_scores : List PyFloat := []
  tool_rewards : List PyFloat := []
  user_turns : ℕ := 0
  assistant_turns : ℕ := 0
  b_ndsr_enabled : Bool := false
  b_ndsr_checkpoints : PyVal := .list []
  b_ndsr_flags : PyVal := .dict []

/-- The parameters of `AgentData.__init__` in `verl`. -/
def agentDataParams : List PyStr :=
  ["messages", "image_data", "video_data", "audio_data", "mm_processor_kwargs", "metrics",
    "request_id", "tools_kwargs"]

/-- The keywords with which `run` calls the class. -/
def agentDataKeywords : List PyStr :=
  ["messages", "image_data", "metrics", "request_id", "tools_kwargs", "interaction",
    "interaction_kwargs"]

/-- `AgentData(...)` in `run`, for a class with the parameters `params`. -/
def AgentData.init (params : List PyStr) (messages : List PyVal) (image_data metrics : PyVal)
    (request_id : PyStr) (tools_kwargs : PyVal) : Except PyErr AgentData := do
  bindKeywords "AgentData.__init__()" params agentDataKeywords
  .ok { messages, image_data, metrics, request_id, tools_kwargs }

/-! ### The loop -/

inductive AgentState where
  | pending
  | generating
  | processing_tools
  | terminated
  deriving DecidableEq

structure AgentLoopOutput where
  prompt_ids : List ℤ
  response_ids : List ℤ
  response_mask : List ℤ
  multi_modal_data : List (PyStr × PyVal)
  response_logprobs : Option (List PyFloat)
  num_turns : ℕ
  metrics : PyVal
  extra_fields : List (PyStr × PyVal)

/-- A handler of a state. It may change the agent data. -/
abbrev Handler (σ ε : Type) := AgentData → StoreProg σ ε (AgentState × AgentData)

/-- The attributes of the loop. -/
structure Loop (σ ε : Type) where
  interaction_config_file : Option PyStr
  interaction_map : List (PyStr × Interaction σ ε)
  response_length : ℤ
  handle_pending_state : Handler σ ε
  handle_generating_state : Handler σ ε
  /-- The handler of the base class. -/
  super_handle_processing_tools_state : Handler σ ε
  /-- `llm_judge.is_enabled()` -/
  llm_judge_enabled : Bool
  /-- The validation of an `AgentLoopOutput`. -/
  validate : AgentLoopOutput → Except PyErr AgentLoopOutput

variable (loop : Loop σ ε)

/-- The override of `_handle_processing_tools_state`. -/
def handleProcessingToolsState (interaction : Option (Interaction σ ε)) : Handler σ ε :=
  fun data => do
    let (next, data) ← loop.super_handle_processing_tools_state data
    let s ← get
    match interaction with
    | none => pure (next, data)
    | some interaction =>
      pure (if isDone interaction data.request_id s then .terminated else next, data)

/-- The `while` loop, for the rounds that are left. Without a result it is still running. -/
def whileLoop (interaction : Option (Interaction σ ε)) :
    ℕ → AgentState → AgentData → StoreProg σ ε (Option AgentData)
  | _, .terminated, data => pure (some data)
  | 0, _, _ => pure none
  | rounds + 1, .pending, data => do
    let (state, data) ← loop.handle_pending_state data
    whileLoop interaction rounds state data
  | rounds + 1, .generating, data => do
    let (state, data) ← loop.handle_generating_state data
    whileLoop interaction rounds state data
  | rounds + 1, .processing_tools, data => do
    let (state, data) ← handleProcessingToolsState loop interaction data
    whileLoop interaction rounds state data

/-- The output for agent data whose score is known. -/
def buildOutput (data : AgentData) (score_info : PyVal) (final_score : PyFloat) : AgentLoopOutput :=
  let response_count := data.response_mask.length
  let floats := fun xs : List PyFloat => PyVal.list (xs.map fun x => PyVal.float x)
  let scores : List (PyStr × PyVal) :=
    [("final_score", .float final_score), ("reward_score", .float final_score),
      ("score_info", score_info), ("turn_scores", floats data.turn_scores),
      ("tool_rewards", floats data.tool_rewards)]
  let trace : List (PyStr × PyVal) :=
    if data.b_ndsr_enabled then
      [("b_ndsr_trace",
        .dict [("checkpoints", data.b_ndsr_checkpoints), ("flags", data.b_ndsr_flags)])]
    else []
  let judged : List (PyStr × PyVal) :=
    if loop.llm_judge_enabled then [("llm_judge_messages", .list data.messages)] else []
  { response_ids :=
      if response_count = 0 then []
      else sliceTo (sliceFrom data.prompt_ids (-response_count)) loop.response_length
    prompt_ids :=
      if response_count = 0 then data.prompt_ids else sliceTo data.prompt_ids (-response_count)
    response_mask := sliceTo data.response_mask loop.response_length
    multi_modal_data := if data.image_data = .null then [] else [("image", data.image_data)]
    response_logprobs :=
      if data.response_logprobs = [] then none
      else some (sliceTo data.response_logprobs loop.response_length)
    num_turns := data.user_turns + data.assistant_turns + 1
    metrics := data.metrics
    extra_fields := scores ++ trace ++ judged }

/-- The score, of the interaction if there is one. -/
def scoreInfo (interaction : Option (Interaction σ ε)) (request_id : PyStr) : StoreProg σ ε PyVal :=
  match interaction with
  | none => pure (.dict [("score", .float (.fin 0))])
  | some interaction => calculateScore interaction request_id

/-- What follows the loop. -/
def finishRun (interaction : Option (Interaction σ ε)) :
    Option AgentData → StoreProg σ ε (Option AgentLoopOutput)
  | none => pure none
  | some data => do
    let score_info ← scoreInfo interaction data.request_id
    let final_score ← lift (score_info.get "score" (.float (.fin 0)) >>= pyFloat)
    let output ← lift (loop.validate (buildOutput loop data score_info final_score))
    pure (some output)

/-- The body of the `try` statement. -/
def runBody (interaction : Option (Interaction σ ε)) (rounds : ℕ) (data : AgentData) :
    StoreProg σ ε (Option AgentLoopOutput) := do
  let data ← whileLoop loop interaction rounds .pending data
  finishRun loop interaction data

/-- The clause `finally`. -/
def runFinally (interaction : Option (Interaction σ ε)) (request_id : PyStr) : StoreProg σ ε Unit :=
  match interaction with
  | none => pure ()
  | some interaction => finalizeInteraction interaction request_id

/-! ### The method -/

/-- The interaction that the arguments ask for, and its own arguments. -/
def selectInteraction (py : Interp) (kwargs : List (PyStr × PyVal)) :
    Except PyErr (Option (Interaction σ ε × List (PyStr × PyVal))) :=
  match loop.interaction_config_file.filter fun path => !path.isEmpty with
  | none => .ok none
  | some _ => do
    let extra_info ← getKey (.dict kwargs) "extra_info"
    let interaction_kwargs ← getKey extra_info "interaction_kwargs"
    let name ← interaction_kwargs.get "name"
    if !name.truthy then throw .valueError "'name' is required in interaction_kwargs"
    else
      match name, interaction_kwargs with
      | .str s, .dict items =>
        match loop.interaction_map.lookup s with
        | some interaction => .ok (some (interaction, items))
        | none => .error ⟨.valueError, "Unknown interaction " ++ py.repr name⟩
      | _, _ =>
        if name.hashable then .error ⟨.valueError, "Unknown interaction " ++ py.repr name⟩
        else .error ⟨.typeError, "unhashable type: '" ++ name.typeName ++ "'"⟩

/-- The interaction is started and its first message is read. -/
def openInteraction (request_id : PyStr) (messages : List PyVal) :
    Option (Interaction σ ε × List (PyStr × PyVal)) → StoreProg σ ε (List PyVal)
  | none => pure messages
  | some (interaction, kwargs) => do
    startInteraction interaction request_id kwargs
    let initial_user ← getInitialResponse request_id
    pure (messages ++ [.dict [("role", .str "user"), ("content", .str initial_user)]])

/-- What `run` reads from its arguments before it looks for an interaction. -/
def readPrompt (kwargs : List (PyStr × PyVal)) : Except PyErr (List PyVal × PyVal) := do
  let prompt ← getKey (.dict kwargs) "raw_prompt"
  let messages ← prompt.iter
  let image ← (dictGet kwargs "multi_modal_data" (.dict [])).get "image"
  .ok (messages, image)

/-- `run`, with a class of agent data that has the parameters `params`. -/
def runWith (params : List PyStr) (py : Interp) (request_id : PyStr)
    (kwargs : List (PyStr × PyVal)) (rounds : ℕ) : StoreProg σ ε (Option AgentLoopOutput) := do
  let (messages, image) ← lift (readPrompt kwargs)
  let selected ← lift (selectInteraction loop py kwargs)
  let messages ← openInteraction request_id messages selected
  let data ← lift (AgentData.init params messages image (.dict []) request_id
    (dictGet kwargs "tools_kwargs" (.dict [])))
  finallyDo (runBody loop (selected.map Prod.fst) rounds data)
    (runFinally (selected.map Prod.fst) request_id)

/-- `run`, with the class of `verl`. -/
def run (py : Interp) (request_id : PyStr) (kwargs : List (PyStr × PyVal)) (rounds : ℕ) :
    StoreProg σ ε (Option AgentLoopOutput) :=
  runWith loop agentDataParams py request_id kwargs rounds

/-! ### What is left in the table -/

section Table

variable {loop : Loop σ ε} {py : Interp} {request_id : PyStr} {kwargs : List (PyStr × PyVal)}
  {s s' : Store σ ε} {interaction : Interaction σ ε} {items : List (PyStr × PyVal)}

/-- A started interaction is in the table. -/
theorem startInteraction_registers
    (h : startInteraction interaction request_id items s = (.ok (), s')) :
    ∃ entry, s'.instance_dict request_id = some entry := by
  rw [startInteraction] at h
  split at h
  · cases h
  · obtain ⟨entry, s₁, -, hset⟩ := bind_run_ok.mp h
    have hs' : { s₁ with instance_dict := Function.update s₁.instance_dict request_id (some entry) } =
        s' := (Prod.mk.inj hset).2
    refine ⟨entry, ?_⟩
    rw [← hs']
    exact Function.update_self _ _ _

/-- Its first message can be read, which leaves the table alone. -/
theorem openInteraction_of_start (messages : List PyVal)
    (h : startInteraction interaction request_id items s = (.ok (), s')) :
    ∃ messages', openInteraction request_id messages (some (interaction, items)) s =
      (.ok messages', s') := by
  obtain ⟨entry, hentry⟩ := startInteraction_registers h
  have hread : getInitialResponse request_id s' = (.ok entry.initial_user_response, s') := by
    refine bind_run_ok.mpr ⟨s', s', rfl, ?_⟩
    rw [hentry]
    rfl
  exact ⟨_, bind_run_ok.mpr ⟨(), s', h, bind_run_ok.mpr ⟨_, s', hread, rfl⟩⟩⟩

/-- **Finalizing** takes the entry out of the table first, so it is gone even if the trace cannot be
written. -/
theorem finalizeInteraction_removes (interaction : Interaction σ ε) (instanceId : PyStr)
    (s : Store σ ε) :
    (finalizeInteraction interaction instanceId s).2.instance_dict instanceId = none := by
  have hremoved : ∀ s₁ : Store σ ε, s₁.instance_dict instanceId = none →
      ∀ entry : Option (Entry ε), ((match entry with
        | none => pure ()
        | some entry => onWorld (interaction.write_trace entry.session) :
          StoreProg σ ε Unit) s₁).2.instance_dict instanceId = none := by
    intro s₁ hs₁ entry
    rcases entry with - | entry
    · exact hs₁
    · exact hs₁
  exact hremoved _ (Function.update_self _ _ _) (s.instance_dict instanceId)

/-- The run comes to a `start_interaction` that registers the request. -/
def Registers (loop : Loop σ ε) (py : Interp) (request_id : PyStr) (kwargs : List (PyStr × PyVal))
    (s : Store σ ε) : Prop :=
  ∃ prompt interaction items s', readPrompt kwargs = .ok prompt ∧
    selectInteraction loop py kwargs = .ok (some (interaction, items)) ∧
    startInteraction interaction request_id items s = (.ok (), s')

/-- **What a run leaves behind**: the request that it has registered, if and only if the constructor
of the agent data raises. -/
theorem runWith_entry (params : List PyStr) (rounds : ℕ)
    (h : Registers loop py request_id kwargs s) :
    (runWith loop params py request_id kwargs rounds s).2.instance_dict request_id = none ↔
      bindKeywords "AgentData.__init__()" params agentDataKeywords = .ok () := by
  obtain ⟨⟨messages, image⟩, interaction, items, s', hprompt, hselect, hstart⟩ := h
  obtain ⟨messages', hopen⟩ := openInteraction_of_start messages hstart
  obtain ⟨entry, hentry⟩ := startInteraction_registers hstart
  have hrun : runWith loop params py request_id kwargs rounds s =
      (lift (AgentData.init params messages' image (.dict []) request_id
        (dictGet kwargs "tools_kwargs" (.dict []))) >>= fun data =>
          finallyDo (runBody loop (some interaction) rounds data)
            (finalizeInteraction interaction request_id)) s' := by
    simp only [runWith, bind_run, lift, hprompt, hselect, hopen]
    rfl
  rw [hrun]
  rcases hbind : bindKeywords "AgentData.__init__()" params agentDataKeywords with e | ⟨⟩
  · -- the constructor raises, and the entry stays
    refine iff_of_false ?_ (by simp)
    have hinit : AgentData.init params messages' image (.dict []) request_id
        (dictGet kwargs "tools_kwargs" (.dict [])) = .error e := by
      rw [AgentData.init, hbind]
      rfl
    rw [hinit]
    show s'.instance_dict request_id ≠ none
    rw [hentry]
    exact Option.some_ne_none entry
  · -- the `finally` clause is reached
    refine iff_of_true ?_ rfl
    have hinit : ∃ data, AgentData.init params messages' image (.dict []) request_id
        (dictGet kwargs "tools_kwargs" (.dict [])) = .ok data := by
      rw [AgentData.init, hbind]
      exact ⟨_, rfl⟩
    obtain ⟨data, hdata⟩ := hinit
    rw [hdata]
    show (finallyDo (runBody loop (some interaction) rounds data)
      (finalizeInteraction interaction request_id) s').2.instance_dict request_id = none
    rw [finallyDo_state]
    exact finalizeInteraction_removes interaction request_id _

/-- A class with exactly the parameters that `run` passes would leave nothing behind. -/
theorem runWith_keywords_clean (rounds : ℕ) (h : Registers loop py request_id kwargs s) :
    (runWith loop agentDataKeywords py request_id kwargs rounds s).2.instance_dict request_id =
      none :=
  (runWith_entry agentDataKeywords rounds h).mpr (by decide)

/-- **Interactions leak.** A run leaves no entry behind if and only if it has not registered any:
with the class of `verl` the constructor raises, before the `finally` clause is in force. -/
theorem run_clean_iff (loop : Loop σ ε) (py : Interp) (request_id : PyStr)
    (kwargs : List (PyStr × PyVal)) (rounds : ℕ) (s : Store σ ε) :
    (Registers loop py request_id kwargs s →
      (run loop py request_id kwargs rounds s).2.instance_dict request_id = none) ↔
    ¬Registers loop py request_id kwargs s := by
  constructor
  · intro hclean hregisters
    have hbind := (runWith_entry agentDataParams rounds hregisters).mp (hclean hregisters)
    exact absurd hbind (by decide)
  · intro hnot hregisters
    exact absurd hregisters hnot

end Table

/-- An interaction that starts, and a loop that generates nothing. -/
def sampleLoop : Loop Unit Unit where
  interaction_config_file := some "interaction.yaml"
  interaction_map := [("tau_bench",
    ⟨fun _ _ => pure ⟨(), "Hi"⟩, fun _ _ => true, fun _ => pure (.dict [("score", .int 1)]),
      fun _ => pure ()⟩)]
  response_length := 512
  handle_pending_state := fun data => pure (.terminated, data)
  handle_generating_state := fun data => pure (.terminated, data)
  super_handle_processing_tools_state := fun data => pure (.terminated, data)
  llm_judge_enabled := false
  validate := .ok

def sampleKwargs : List (PyStr × PyVal) :=
  [("raw_prompt", .list []),
    ("extra_info", .dict [("interaction_kwargs", .dict [("name", .str "tau_bench")])])]

/-- The run registers its request, raises `TypeError`, and leaves the entry in the table. -/
theorem run_leaks :
    Registers sampleLoop .silent "request" sampleKwargs ⟨fun _ => none, ()⟩ ∧
    (∃ msg, (run sampleLoop .silent "request" sampleKwargs 9 ⟨fun _ => none, ()⟩).1 =
      .error ⟨.typeError, msg⟩) ∧
    (run sampleLoop .silent "request" sampleKwargs 9 ⟨fun _ => none, ()⟩).2.instance_dict "request" ≠
      none := by
  have hregisters : Registers sampleLoop .silent "request" sampleKwargs ⟨fun _ => none, ()⟩ :=
    ⟨([], .null), _, _, _, rfl, rfl, rfl⟩
  refine ⟨hregisters, ⟨_, rfl⟩, fun hnone => ?_⟩
  have hbind := (runWith_entry agentDataParams 9 hregisters).mp hnone
  exact absurd hbind (by decide)

end AgentLoop

end ToolAgent
