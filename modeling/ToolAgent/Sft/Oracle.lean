import ToolAgent.Sft.Rollout

/-!
# Oracle demonstrations

`collect_oracle_example` of `collect_sft_data`: the actions of a task are carried out on a fresh
database and written down as a conversation, and the row is labelled a success without asking the
environment. The environment would compare the database with a replay of the same actions through
`step`, and look for the outputs of the task in what was said.

The arguments of the actions are the task's own objects. A call that writes to those of another
call, by way of what the database keeps of them, has the replay start from other arguments than the
demonstration.

## The replay

A replay skips the tools that end an episode, and sends every `respond` action to the simulated
user. An answer with `###STOP###` makes `step` compute a reward of its own: the database is loaded
anew, all actions are replayed inside the replay, and then the outer replay goes on where it was.
The calls that are left at that point are made a second time, on top of all. `remade` lists them.

## Main definitions

* `collectOracleExample` — a demonstration
* `effect` — what an action does to the memory
* `Steady`, `Undisturbed` — the task's own calls do not write to each other's arguments
* `remade` — the calls of a replay that come on top of the whole list of actions
* `OracleScored` — the label is right

## Main results

* `oracleLoop_spec` — the database and the conversation of a demonstration
* `calculateReward_data` — the database of a replay
* `collectOracleExample_scored_iff` — when the label is right
* `oracleScored_iff_of_quiet` — the same for a user who lets the responses pass
-/

namespace ToolAgent

namespace Collect

open Python Prog Policy TauBench

/-! ### The demonstration -/

/-- A message of the assistant without tool calls. -/
def assistantMessage (content : PyVal) : Message :=
  [("role", .str "assistant"), ("content", content)]

/-- `assistant_tool_call`. -/
def assistantToolCall (py : Interp) (shared : Shared) (action : Action)
    (callId : PyStr) : Message :=
  [("role", .str "assistant"), ("content", .str []),
    ("tool_calls", .list [.dict
      [("id", .str callId), ("type", .str "function"),
        ("function", .dict
          [("name", .str action.name), ("arguments", .str (py.dumps (.dict (shared.read action.kwargs))))])]])]

section Code

variable {δ υ : Type} (py : Interp) (dom : Domain δ υ)

/-- `env.tools_map[name].invoke(data=env.data, **kwargs)`, with the text of an exception in place of
the result. A tool that is missing is such an exception. -/
def invokeNamed (action : Action) : EnvProg δ υ PyStr :=
  match dom.tools_map.lookup action.name with
  | some tool => invoke tool action.kwargs
  | none => pure ("Error: " ++ py.repr (.str action.name))

/-- One action, with the messages that are added and the next number of a call. -/
def oracleAction (taskId : ℤ) (toolIdx : ℕ) (action : Action) : EnvProg δ υ (List Message × ℕ) := do
  let env ← get
  if action.name = RESPOND_ACTION_NAME then
    pure ([assistantMessage (dictGet (env.read action.kwargs) "content" (.str []))], toolIdx)
  else do
    let callId := PyStr.ofString "oracle_" ++ intRepr taskId ++ "_" ++ natRepr toolIdx
    let observation ← invokeNamed py dom action
    pure ([assistantToolCall py env.shared action callId,
      toolMessage (.str callId) (.str action.name) observation], toolIdx + 1)

/-- `for action in task.actions`. -/
def oracleLoop (taskId : ℤ) : List Action → ℕ → List Message → EnvProg δ υ (List Message)
  | [], _, messages => pure messages
  | action :: actions, toolIdx, messages => do
    let (added, toolIdx) ← oracleAction py dom taskId toolIdx action
    oracleLoop taskId actions toolIdx (messages ++ added)

/-- The last message, unless the assistant has it already. -/
def closeOracle (outputs : List PyStr) (messages : List Message) : List Message :=
  if messages.getLast?.map isAssistant = some true then messages
  else
    let final := PyStr.ofString "The requested change has been completed." ++
      if outputs = [] then [] else PyStr.ofString " " ++ List.intercalate
        (PyStr.ofString " ") outputs
    messages ++ [assistantMessage (.str final)]

/-- A row of a demonstration. -/
structure OracleRow where
  task_id : ℤ
  sample_idx : ℕ
  temperature : PyFloat
  success : Bool
  reward : PyFloat
  num_turns : ℕ
  num_tool_calls : ℕ
  messages : List Message
  source : PyStr

/-- What the first message of the user says. -/
def oracleStart (useUserSim : Bool) : EnvProg δ υ PyStr :=
  if useUserSim then reset dom else pure dom.task.instruction

/-- `collect_oracle_example`, for a system prompt and the environment of a task. -/
def collectOracleExample (system : PyStr) (useUserSim : Bool) (taskId : ℤ) :
    EnvProg δ υ OracleRow := do
  let first ← oracleStart dom useUserSim
  let messages ← oracleLoop py dom taskId dom.task.actions 0 [systemMessage system,
    userMessage first]
  let messages := closeOracle dom.task.outputs messages
  pure
    { task_id := taskId, sample_idx := 0, temperature := .fin 0, success := true, reward := .fin 1
      num_turns := messages.countP isAssistant
      num_tool_calls := messages.countP fun message => dictGet message "role" = .str "tool"
      messages := messages, source := "tau_bench_oracle_actions" }

end Code

/-! ### What a demonstration does -/

section Effect

variable {δ υ : Type}

/-- The memory before the first action: the database is loaded. -/
def loaded (dom : Domain δ υ) (shared : Shared) : Memory δ := ⟨dom.data_load, [], shared⟩

/-- What an action does to the memory. -/
def effect (dom : Domain δ υ) (memory : Memory δ) (action : Action) : Memory δ :=
  if action.name = RESPOND_ACTION_NAME then memory
  else
    match dom.tools_map.lookup action.name with
    | some tool => (tool action.kwargs memory).2
    | none => memory

/-- The memory after the calls `calls`. -/
def afterCalls (dom : Domain δ υ) (shared : Shared) (calls : List Action) : Memory δ :=
  calls.foldl (effect dom) (loaded dom shared)

/-- The memory after all actions of the task. -/
def demonstrated (dom : Domain δ υ) (shared : Shared) : Memory δ :=
  afterCalls dom shared dom.task.actions

/-- No tool that ends an episode changes the memory. -/
def TerminalsKeep (dom : Domain δ υ) : Prop :=
  ∀ name ∈ dom.terminate_tools, ∀ tool, dom.tools_map.lookup name = some tool →
    ∀ args memory, (tool args memory).2 = memory

/-- Carried out in order, the actions of the task leave the arguments of all of them as they
were. -/
def Steady (dom : Domain δ υ) (shared : Shared) : Prop :=
  ∀ past, past <+: dom.task.actions → (afterCalls dom shared past).shared = shared

variable {dom : Domain δ υ} {action : Action} {memory : Memory δ}

theorem afterCalls_append (shared : Shared) (calls : List Action) (action : Action) :
    afterCalls dom shared (calls ++ [action]) = effect dom (afterCalls dom shared calls)
      action := by
  rw [afterCalls, List.foldl_append]
  rfl

theorem effect_of_respond (h : action.name = RESPOND_ACTION_NAME) :
    effect dom memory action = memory :=
  if_pos h

theorem effect_of_tool {tool : Tool δ} (h : action.name ≠ RESPOND_ACTION_NAME)
    (htool : dom.tools_map.lookup action.name = some tool) :
    effect dom memory action = (tool action.kwargs memory).2 := by
  rw [effect, if_neg h, htool]

theorem effect_of_unknown (htool : dom.tools_map.lookup action.name = none) :
    effect dom memory action = memory := by
  rw [effect, htool]
  split <;> rfl

theorem effect_of_terminal (h : TerminalsKeep dom) (hterminal : action.name ∈ dom.terminate_tools) :
    effect dom memory action = memory := by
  by_cases hrespond : action.name = RESPOND_ACTION_NAME
  · exact effect_of_respond hrespond
  · rcases htool : dom.tools_map.lookup action.name with _ | tool
    · exact effect_of_unknown htool
    · rw [effect_of_tool hrespond htool]
      exact h action.name hterminal tool htool action.kwargs memory

end Effect

/-! ### What is said -/

/-- What an action has the assistant say. A message with a tool call says nothing. -/
def said (shared : Shared) (action : Action) : PyVal :=
  if action.name = RESPOND_ACTION_NAME then
    dictGet (shared.read action.kwargs) "content" (.str [])
  else .str []

/-- What the assistant says in a conversation. -/
def saidBy (messages : List Message) : List PyVal :=
  (messages.filter isAssistant).map fun message => dictGet message "content"

theorem saidBy_append (xs ys : List Message) : saidBy (xs ++ ys) = saidBy xs ++ saidBy ys := by
  rw [saidBy, List.filter_append, List.map_append]
  rfl

/-- Whether the last message is the assistant's. -/
def endsWithAssistant (messages : List Message) : Bool :=
  messages.getLast?.map isAssistant = some true

/-- Whether the last action is a response. -/
def EndsWithRespond (actions : List Action) : Prop :=
  ∃ action, actions.getLast? = some action ∧ action.name = RESPOND_ACTION_NAME

theorem not_endsWithRespond_nil : ¬EndsWithRespond [] := by
  rintro ⟨action, hlast, -⟩
  cases hlast

theorem endsWithRespond_cons {action : Action} {actions : List Action} :
    EndsWithRespond (action :: actions) ↔
      EndsWithRespond actions ∨ actions = [] ∧ action.name = RESPOND_ACTION_NAME := by
  cases actions with
  | nil => simp [EndsWithRespond]
  | cons next actions => simp [EndsWithRespond, List.getLast?_cons_cons]

section Loop

variable {δ υ : Type} (py : Interp) (dom : Domain δ υ)

/-- A missing tool does nothing, and an invocation does what the tool does. -/
theorem invokeNamed_run {action : Action} (h : action.name ≠ RESPOND_ACTION_NAME) (env : Env δ υ) :
    ∃ observation, invokeNamed py dom action env =
      (.ok observation, { env with toMemory := effect dom env.toMemory action }) := by
  rw [invokeNamed]
  rcases htool : dom.tools_map.lookup action.name with _ | tool
  · rw [effect_of_unknown htool]
    exact ⟨_, rfl⟩
  · rw [effect_of_tool h htool]
    exact ⟨_, invoke_run tool action.kwargs env⟩

/-- **One action**: its effect, and what is said. -/
theorem oracleAction_spec (taskId : ℤ) (toolIdx : ℕ) (action : Action) (env : Env δ υ) :
    ∃ added toolIdx', oracleAction py dom taskId toolIdx action env =
        (.ok (added, toolIdx'), { env with toMemory := effect dom env.toMemory action }) ∧
      saidBy added = [said env.shared action] ∧ added ≠ [] ∧
      (endsWithAssistant added = true ↔ action.name = RESPOND_ACTION_NAME) := by
  rw [oracleAction, get_bind_run, said]
  by_cases h : action.name = RESPOND_ACTION_NAME
  · rw [if_pos h, if_pos h, effect_of_respond h]
    exact ⟨_, _, rfl, rfl, List.cons_ne_nil _ _, iff_of_true rfl h⟩
  · obtain ⟨observation, hrun⟩ := invokeNamed_run py dom h env
    rw [if_neg h, if_neg h]
    refine ⟨_, _, bind_run_of_ok hrun, rfl, List.cons_ne_nil _ _, iff_of_false ?_ h⟩
    exact Bool.false_ne_true

/-- The messages that are added to a conversation decide how it ends. -/
theorem endsWithAssistant_append {xs ys : List Message} (h : ys ≠ []) :
    endsWithAssistant (xs ++ ys) = endsWithAssistant ys := by
  rw [endsWithAssistant, List.getLast?_append_of_ne_nil xs h, endsWithAssistant]

/-- **The loop**: the effects of all actions, in order, and what is said, in a task whose calls do
not disturb each other. -/
theorem oracleLoop_spec (taskId : ℤ) {shared : Shared} (hsteady : Steady dom shared) :
    ∀ (actions past : List Action) (toolIdx : ℕ) (messages : List Message) (env : Env δ υ),
      past ++ actions <+: dom.task.actions → env.toMemory = afterCalls dom shared past →
      ∃ messages', oracleLoop py dom taskId actions toolIdx messages env =
          (.ok messages', { env with toMemory := afterCalls dom shared (past ++ actions) }) ∧
        saidBy messages' = saidBy messages ++ actions.map (said shared) ∧
        (endsWithAssistant messages' = true ↔
          EndsWithRespond actions ∨ actions = [] ∧ endsWithAssistant messages = true) := by
  intro actions
  induction actions with
  | nil =>
    intro past toolIdx messages env _ hmemory
    rw [List.append_nil, ← hmemory]
    refine ⟨messages, rfl, (List.append_nil _).symm, ?_⟩
    simp [not_endsWithRespond_nil]
  | cons action actions ih =>
    intro past toolIdx messages env hactions hmemory
    have hshared : env.shared = shared := (congrArg Memory.shared hmemory).trans
      (hsteady past ((List.prefix_append _ _).trans hactions))
    obtain ⟨added, toolIdx', hrun, hsaid, hne, hends⟩ :=
      oracleAction_spec py dom taskId toolIdx action env
    rw [hmemory, ← afterCalls_append] at hrun
    have hassoc : past ++ action :: actions = (past ++ [action]) ++ actions := by
      rw [List.append_assoc]
      rfl
    rw [hassoc] at hactions ⊢
    obtain ⟨messages', hloop, hsaid', hends'⟩ := ih (past ++ [action]) toolIdx' (messages ++ added)
      { env with toMemory := afterCalls dom shared (past ++ [action]) } hactions rfl
    refine ⟨messages', ?_, ?_, ?_⟩
    · rw [oracleLoop, bind_run_of_ok hrun]
      exact hloop
    · rw [hsaid', saidBy_append, hsaid, hshared, List.append_assoc]
      rfl
    · rw [hends', endsWithAssistant_append hne, hends, endsWithRespond_cons]
      simp

end Loop

/-! ### The replay -/

section Replay

variable {δ υ : Type}

/-- One action of a replay, as far as the user goes. It is given what a replay inside this one comes
to, and keeps the calls that have been made on top of the whole list of actions: `none` as long as
the database was not loaded anew. -/
def remadeAction (dom : Domain δ υ) (shared : Shared) (nested : υ → Option (List Action × υ)) :
    Option (List Action) × υ → Action → Option (Option (List Action) × υ)
  | (calls, user), action =>
    if dom.terminate_tools.contains action.name then some (calls, user)
    else if action.name = RESPOND_ACTION_NAME then
      match kwarg (shared.read action.kwargs) "content" with
      | .error _ => none
      | .ok content =>
        match dom.user.step content user with
        | (.error _, _) => none
        | (.ok observation, user) =>
          if isSubstr "###STOP###" observation then
            (nested user).map fun (calls, user) => (some calls, user)
          else some (calls, user)
    else some (calls.map fun calls => calls ++ [action], user)

/-- The calls that a replay makes a second time, because the user answers a replayed response with
`###STOP###`, and the user's memory after it. -/
def remade (dom : Domain δ υ) (shared : Shared) : ℕ → υ → Option (List Action × υ)
  | 0, _ => none
  | depth + 1, user =>
    (dom.task.actions.foldlM (remadeAction dom shared (remade dom shared depth)) (none, user)).map
      fun (calls, user) => (calls.getD [], user)

/-- The calls that are made again leave the arguments of the task's actions as they were, too. -/
structure Undisturbed (dom : Domain δ υ) (shared : Shared) (nested : υ → Option (List Action × υ)) :
    Prop where
  steady : Steady dom shared
  again : ∀ past calls user user', past <+: dom.task.actions →
    past.foldlM (remadeAction dom shared nested) (none, user) = some (some calls, user') →
      (afterCalls dom shared (dom.task.actions ++ calls)).shared = shared

/-- Where a pass has come to after the actions `past`: the calls that were made since the database
was loaded are those of the user's side of it. -/
structure Tracks (dom : Domain δ υ) (shared : Shared) (nested : υ → Option (List Action × υ))
    (past : List Action) (env : Env δ υ) (calls : Option (List Action)) : Prop where
  reached : ∃ user, past.foldlM (remadeAction dom shared nested) (none, user) =
    some (calls, env.user)
  memory : env.toMemory = afterCalls dom shared
    (calls.elim past fun calls => dom.task.actions ++ calls)

variable {dom : Domain δ υ} {py : Interp} {shared : Shared}

section Tracks

variable {nested : υ → Option (List Action × υ)} {past : List Action} {env env' : Env δ υ}
  {calls calls' : Option (List Action)} {action : Action}

/-- A pass starts with a fresh database. -/
theorem tracks_nil (h : env.toMemory = loaded dom shared) : Tracks dom shared nested [] env none :=
  ⟨⟨env.user, rfl⟩, h⟩

/-- Nothing that was done so far has changed the arguments of the task. -/
theorem Tracks.undisturbed (h : Tracks dom shared nested past env calls)
    (hundisturbed : Undisturbed dom shared nested) (hpast : past <+: dom.task.actions) :
    env.shared = shared := by
  obtain ⟨user, hreached⟩ := h.reached
  refine (congrArg Memory.shared h.memory).trans ?_
  cases calls with
  | none => exact hundisturbed.steady past hpast
  | some calls => exact hundisturbed.again past calls user env.user hpast hreached

/-- One more action, as far as the user goes. -/
theorem Tracks.snoc (h : Tracks dom shared nested past env calls)
    (haction : remadeAction dom shared nested (calls, env.user) action = some (calls', env'.user))
    (hmemory : env'.toMemory = afterCalls dom shared
      (calls'.elim (past ++ [action]) fun calls => dom.task.actions ++ calls)) :
    Tracks dom shared nested (past ++ [action]) env' calls' := by
  obtain ⟨user, hreached⟩ := h.reached
  refine ⟨⟨user, ?_⟩, hmemory⟩
  rw [List.foldlM_append, hreached]
  show (remadeAction dom shared nested (calls, env.user) action >>= some) = _
  rw [haction]
  rfl

/-- A call is one more call. -/
theorem Tracks.extended (h : Tracks dom shared nested past env calls) :
    effect dom env.toMemory action = afterCalls dom shared
      ((calls.map fun calls => calls ++ [action]).elim (past ++ [action])
        fun calls => dom.task.actions ++ calls) := by
  rw [h.memory, ← afterCalls_append]
  cases calls with
  | none => rfl
  | some calls => exact congrArg (afterCalls dom shared) (List.append_assoc _ _ _)

/-- An action without an effect may be left out. -/
theorem Tracks.skipped (h : Tracks dom shared nested past env calls)
    (hnone : ∀ memory, effect dom memory action = memory) :
    env.toMemory = afterCalls dom shared
      (calls.elim (past ++ [action]) fun calls => dom.task.actions ++ calls) := by
  cases calls with
  | none => exact h.memory.trans ((afterCalls_append _ _ _).trans (hnone _)).symm
  | some calls => exact h.memory

end Tracks

/-- A computation of a reward leaves the memory of the task with the calls that were made again. -/
def Replays (dom : Domain δ υ) (shared : Shared) (nested : υ → Option (List Action × υ))
    (calculate : EnvProg δ υ RewardResult) : Prop :=
  ∀ env result env', env.shared = shared → calculate env = (.ok result, env') → ∃ calls,
    nested env.user = some (calls, env'.user) ∧
      env'.toMemory = afterCalls dom shared (dom.task.actions ++ calls)

theorem onUser_ok {α : Type} {m : Prog PyErr υ α} {a : α} {env env' : Env δ υ}
    (h : onUser m env = (.ok a, env')) :
    ∃ user, m env.user = (.ok a, user) ∧ { env with user := user } = env' := by
  obtain ⟨hresult, henv⟩ := Prod.mk.inj h
  exact ⟨(m env.user).2, Prod.ext hresult rfl, henv⟩

/-- The end of a step that returns. -/
theorem finishStep_ok {calculate : EnvProg δ υ RewardResult} {observation source : PyStr}
    {done : Bool}
    {env env' : Env δ υ} {response : EnvResponse}
    (h : finishStep dom calculate observation source done env = (.ok response, env')) :
    if done then ∃ result, calculate env = (.ok result, env') else env' = env := by
  cases done with
  | false => exact (congrArg Prod.snd h).symm
  | true =>
    obtain ⟨result, env₁, hcalculate, hrest⟩ := bind_run_ok.mp h
    obtain rfl : env₁ = env' := congrArg Prod.snd hrest
    exact ⟨result, hcalculate⟩

section Step

variable {calculate : EnvProg δ υ RewardResult} {action : Action} {env env' : Env δ υ}
  {response : EnvResponse}

/-- A response goes to the user, and an answer that stops the episode has a reward computed. -/
theorem stepWith_respond_ok (hrespond : action.name = RESPOND_ACTION_NAME)
    (h : stepWith dom calculate action env = (.ok response, env')) :
    ∃ content observation user, kwarg (env.read action.kwargs) "content" = .ok content ∧
      dom.user.step content env.user = (.ok observation, user) ∧
      if isSubstr "###STOP###" observation then
        ∃ result, calculate ⟨env.toMemory, env.actions ++ [action], user⟩ = (.ok result, env')
      else env' = ⟨env.toMemory, env.actions ++ [action], user⟩ := by
  rw [stepWith, addAction, modify_bind_run, if_pos hrespond, get_bind_run] at h
  obtain ⟨content, env₁, hlift, h⟩ := bind_run_ok.mp h
  obtain ⟨hcontent, rfl⟩ := lift_run_ok.mp hlift
  obtain ⟨observation, env₂, huser, h⟩ := bind_run_ok.mp h
  obtain ⟨user, hstep, rfl⟩ := onUser_ok huser
  exact ⟨content, observation, user, hcontent, hstep, finishStep_ok h⟩

/-- Any other action that does not end the episode has its effect on the memory, and that is all. -/
theorem stepWith_tool_ok (hrespond : action.name ≠ RESPOND_ACTION_NAME)
    (hterminal : dom.terminate_tools.contains action.name = false)
    (h : stepWith dom calculate action env = (.ok response, env')) :
    env'.toMemory = effect dom env.toMemory action ∧ env'.user = env.user := by
  rw [stepWith, addAction, modify_bind_run, if_neg hrespond] at h
  rcases htool : dom.tools_map.lookup action.name with _ | tool
  · rw [htool] at h
    rw [effect_of_unknown htool, finishStep_ok h]
    exact ⟨rfl, rfl⟩
  · rw [htool] at h
    obtain ⟨observation, env₁, hinvoke, h⟩ := bind_run_ok.mp h
    rw [invoke_run] at hinvoke
    obtain rfl := congrArg Prod.snd hinvoke
    rw [hterminal] at h
    rw [effect_of_tool hrespond htool, finishStep_ok h]
    exact ⟨rfl, rfl⟩

end Step

/-- One action of a replay. -/
def replayAction (dom : Domain δ υ) (step : Action → EnvProg δ υ EnvResponse) (action : Action) :
    EnvProg δ υ Unit :=
  if dom.terminate_tools.contains action.name then pure ()
  else do
    let _ ← step action
    pure ()

/-- What is left of the state after a reward is computed is what the replay has left. -/
theorem calculateWith_ok {step : Action → EnvProg δ υ EnvResponse} {env env' : Env δ υ}
    {result : RewardResult} (h : calculateWith py dom step env = (.ok result, env')) :
    forEach (replayAction dom step) dom.task.actions
      { env with toMemory := loaded dom env.shared } = (.ok (), env') := by
  obtain ⟨data_hash, env₁, hhash, h⟩ := bind_run_ok.mp h
  obtain rfl : env = env₁ := congrArg Prod.snd hhash
  obtain ⟨_, env₂, hset, h⟩ := bind_run_ok.mp h
  obtain rfl := congrArg Prod.snd hset
  obtain ⟨_, env₃, hreplay, h⟩ := bind_run_ok.mp h
  obtain ⟨gt_data_hash, env₄, hgt, h⟩ := bind_run_ok.mp h
  obtain rfl : env₃ = env₄ := congrArg Prod.snd hgt
  -- what follows only reads
  have hend : env₃ = env' := by
    split at h
    · exact congrArg Prod.snd h
    · rw [get_bind_run] at h
      obtain ⟨founds, env₅, hfounds, h⟩ := bind_run_ok.mp h
      obtain ⟨-, rfl⟩ := lift_run_ok.mp hfounds
      exact congrArg Prod.snd h
  rw [← hend]
  exact hreplay

section Pass

variable {nested : υ → Option (List Action × υ)} {calculate : EnvProg δ υ RewardResult}

/-- **One action of a replay.** -/
theorem replayAction_ok (hterminal : TerminalsKeep dom)
    (hundisturbed : Undisturbed dom shared nested)
    (hnested : Replays dom shared nested calculate) {action : Action} {past : List Action}
    {calls : Option (List Action)} {env env' : Env δ υ} (hpast : past <+: dom.task.actions)
    (htracks : Tracks dom shared nested past env calls)
    (h : replayAction dom (stepWith dom calculate) action env = (.ok (), env')) :
    ∃ calls', remadeAction dom shared nested (calls, env.user) action = some (calls', env'.user) ∧
      Tracks dom shared nested (past ++ [action]) env' calls' := by
  have hshared : env.shared = shared := htracks.undisturbed hundisturbed hpast
  suffices hone : ∃ calls',
      remadeAction dom shared nested (calls, env.user) action = some (calls', env'.user) ∧
        env'.toMemory = afterCalls dom shared
          (calls'.elim (past ++ [action]) fun calls => dom.task.actions ++ calls) by
    obtain ⟨calls', haction, hmemory⟩ := hone
    exact ⟨calls', haction, htracks.snoc haction hmemory⟩
  rw [replayAction] at h
  rw [remadeAction]
  by_cases hskip : dom.terminate_tools.contains action.name = true
  · rw [if_pos hskip] at h ⊢
    obtain rfl : env = env' := congrArg Prod.snd h
    have hmem : action.name ∈ dom.terminate_tools := List.contains_iff_mem.mp hskip
    exact ⟨calls, rfl, htracks.skipped fun memory => effect_of_terminal hterminal hmem⟩
  rw [if_neg hskip] at h ⊢
  obtain ⟨response, env₁, hstep, h⟩ := bind_run_ok.mp h
  obtain rfl : env₁ = env' := congrArg Prod.snd h
  by_cases hrespond : action.name = RESPOND_ACTION_NAME
  · obtain ⟨content, observation, user, hcontent, huser, hdone⟩ :=
      stepWith_respond_ok hrespond hstep
    rw [Memory.read, hshared] at hcontent
    simp only [if_pos hrespond, hcontent, huser]
    by_cases hstop : isSubstr "###STOP###" observation = true
    · -- the database is loaded anew
      rw [if_pos hstop] at hdone ⊢
      obtain ⟨result, hcalculate⟩ := hdone
      obtain ⟨calls', hremade, hmemory⟩ :=
        hnested ⟨env.toMemory, env.actions ++ [action], user⟩ result env₁ hshared hcalculate
      rw [hremade]
      exact ⟨some calls', rfl, hmemory⟩
    · rw [if_neg hstop] at hdone ⊢
      rw [hdone]
      exact ⟨calls, rfl, htracks.skipped fun memory => effect_of_respond hrespond⟩
  · obtain ⟨hmemory, huser⟩ := stepWith_tool_ok hrespond (Bool.eq_false_iff.mpr hskip) hstep
    rw [if_neg hrespond, hmemory, huser]
    exact ⟨_, rfl, htracks.extended⟩

/-- **One pass.** -/
theorem replay_ok (hterminal : TerminalsKeep dom) (hundisturbed : Undisturbed dom shared nested)
    (hnested : Replays dom shared nested calculate) {actions : List Action} :
    ∀ {past : List Action} {calls : Option (List Action)} {env env' : Env δ υ},
      past ++ actions <+: dom.task.actions → Tracks dom shared nested past env calls →
      forEach (replayAction dom (stepWith dom calculate)) actions env = (.ok (), env') →
      ∃ calls', actions.foldlM (remadeAction dom shared nested) (calls, env.user) =
          some (calls', env'.user) ∧
        Tracks dom shared nested (past ++ actions) env' calls' := by
  induction actions with
  | nil =>
    intro past calls env env' _ htracks h
    obtain rfl : env = env' := congrArg Prod.snd h
    rw [List.append_nil]
    exact ⟨calls, rfl, htracks⟩
  | cons action actions ih =>
    intro past calls env env' hactions htracks h
    obtain ⟨_, env₁, haction, h⟩ := bind_run_ok.mp h
    have hpast : past <+: dom.task.actions := (List.prefix_append _ _).trans hactions
    have hassoc : past ++ action :: actions = (past ++ [action]) ++ actions := by
      rw [List.append_assoc]
      rfl
    rw [hassoc] at hactions ⊢
    obtain ⟨calls₁, hremade, htracks₁⟩ :=
      replayAction_ok hterminal hundisturbed hnested hpast htracks haction
    obtain ⟨calls', hremade', htracks'⟩ := ih hactions htracks₁ h
    refine ⟨calls', ?_, htracks'⟩
    rw [List.foldlM_cons, hremade]
    exact hremade'

end Pass

/-- **The memory of a replay** is that of the task with the calls that are made again. -/
theorem calculateReward_data (hterminal : TerminalsKeep dom)
    (hundisturbed : ∀ depth, Undisturbed dom shared (remade dom shared depth)) :
    ∀ depth : ℕ, Replays dom shared (remade dom shared depth) (calculateReward py dom depth) := by
  intro depth
  induction depth with
  | zero =>
    intro env result env' _ h
    cases h
  | succ depth ih =>
    intro env result env' hshared h
    have hstart : Tracks dom shared (remade dom shared depth) []
        { env with toMemory := loaded dom env.shared } none := by
      refine tracks_nil ?_
      rw [hshared]
    obtain ⟨calls, hremade, htracks⟩ := replay_ok hterminal (hundisturbed depth) ih List.prefix_rfl
      hstart (calculateWith_ok h)
    refine ⟨calls.getD [], ?_, ?_⟩
    · rw [remade, hremade]
      rfl
    · rw [htracks.memory]
      cases calls with
      | none => exact congrArg (afterCalls dom shared) (List.append_nil _).symm
      | some calls => rfl

end Replay

/-! ### Outputs -/

/-- The rule of the environment for one output and what was said, if that is a text. -/
def Mentions (py : Interp) (output : PyStr) (content : PyVal) : Prop :=
  ∃ text, content = .str text ∧
    isSubstr (py.lowercase output) ((py.lowercase text).filter (· ≠ ch ',')) = true

/-- `str.lower` goes from word to word, since a space settles how the letters before it end, and it
makes no commas. -/
structure LowersWords (py : Interp) : Prop where
  space : ∀ a b, py.lowercase (a ++ ch ' ' :: b) = py.lowercase a ++ ch ' ' :: py.lowercase b
  comma : ∀ s, ch ',' ∉ s → ch ',' ∉ py.lowercase s

/-- Where an element stands in a text that is joined by spaces. -/
theorem intercalate_eq {x : PyStr} {xs : List PyStr} (h : x ∈ xs) : ∃ before after,
    (after = [] ∨ ∃ rest, after = ch ' ' :: rest) ∧
      PyStr.ofString " " ++ List.intercalate (PyStr.ofString " ") xs =
        before ++ ch ' ' :: (x ++ after) := by
  induction xs with
  | nil => exact absurd h List.not_mem_nil
  | cons y ys ih =>
    rcases ys with _ | ⟨z, ys⟩
    · obtain rfl := List.mem_singleton.mp h
      refine ⟨[], [], .inl rfl, ?_⟩
      rw [List.intercalate_singleton, List.append_nil]
      rfl
    · have hcons : List.intercalate (PyStr.ofString " ") (y :: z :: ys) =
          y ++ (PyStr.ofString " " ++ List.intercalate (PyStr.ofString " ") (z :: ys)) := by
        rw [List.intercalate_cons_cons, List.append_assoc]
      rw [hcons]
      rcases List.mem_cons.mp h with rfl | h
      · exact ⟨[], _, .inr ⟨_, rfl⟩, rfl⟩
      · obtain ⟨before, after, hafter, heq⟩ := ih h
        refine ⟨PyStr.ofString " " ++ (y ++ before), after, hafter, ?_⟩
        rw [heq, List.append_assoc, List.append_assoc]

/-- Every output is in the last message. -/
theorem mentions_final {py : Interp} (hpy : LowersWords py) {output : PyStr} {outputs : List PyStr}
    (hcomma : ch ',' ∉ output) (hmem : output ∈ outputs) :
    Mentions py output (.str (PyStr.ofString "The requested change has been completed." ++
      if outputs = [] then [] else PyStr.ofString " " ++ List.intercalate (PyStr.ofString " ")
        outputs)) := by
  obtain ⟨before, after, hafter, heq⟩ := intercalate_eq hmem
  refine ⟨_, rfl, ?_⟩
  rw [if_neg (List.ne_nil_of_mem hmem), heq, ← List.append_assoc, hpy.space, isSubstr_iff]
  have hword : py.lowercase output <:+: py.lowercase (output ++ after) := by
    rcases hafter with rfl | ⟨rest, rfl⟩
    · exact (List.append_nil output).symm ▸ List.infix_rfl
    · rw [hpy.space]
      exact List.infix_append' [] _ _
  have hkept : (py.lowercase output).filter (· ≠ ch ',') = py.lowercase output := by
    refine List.filter_eq_self.mpr fun c hc => decide_eq_true fun heq => ?_
    exact hpy.comma output hcomma (heq ▸ hc)
  rw [← hkept]
  exact (hword.trans ((List.suffix_cons _ _).isInfix.trans (List.suffix_append _ _).isInfix)).filter _

/-! ### The label -/

section Label

variable {δ υ : Type}

/-- The label of a row is right: from where the demonstration has left the environment, a reward can
be computed and its replay comes to the same database, and every output is in a message of the
assistant. -/
structure OracleScored (py : Interp) (dom : Domain δ υ) (row : OracleRow)
    (env : Env δ υ) : Prop where
  database : ∃ depth result env', calculateReward py dom depth env = (.ok result, env') ∧
    env'.data = env.data
  outputs : ∀ output ∈ dom.task.outputs, ∃ message ∈ row.messages, isAssistant message = true ∧
    Mentions py output (dictGet message "content")

/-- The condition for that: a reward can be computed, the calls that its replay makes a second time
change nothing, and the outputs are said in a response unless the last action is not a response. -/
structure OracleSound (py : Interp) (dom : Domain δ υ) (env : Env δ υ) : Prop where
  replay : ∃ depth calls user, (∃ result env', calculateReward py dom depth env =
    (.ok result, env')) ∧
    remade dom env.shared depth env.user = some (calls, user) ∧
    (afterCalls dom env.shared (dom.task.actions ++ calls)).data =
      (demonstrated dom env.shared).data
  outputs : ¬EndsWithRespond dom.task.actions ∨
    ∀ output ∈ dom.task.outputs, ∃ action ∈ dom.task.actions,
      Mentions py output (said env.shared action)

variable {py : Interp} {dom : Domain δ υ} {system : PyStr} {useUserSim : Bool}
    {taskId : ℤ} {user : υ}
  {shared : Shared} {row : OracleRow} {env : Env δ υ}

/-- The first message leaves a fresh database. -/
theorem oracleStart_ok {first : PyStr}
    (h : oracleStart dom useUserSim ⟨loaded dom shared, [], user⟩ = (.ok first, env)) :
    env.toMemory = loaded dom shared ∧ env.actions = [] := by
  cases useUserSim with
  | false =>
    obtain rfl := congrArg Prod.snd h
    exact ⟨rfl, rfl⟩
  | true =>
    obtain ⟨_, env₁, hset, h⟩ := bind_run_ok.mp h
    obtain rfl := congrArg Prod.snd hset
    obtain ⟨_, env₂, hclear, h⟩ := bind_run_ok.mp h
    obtain rfl := congrArg Prod.snd hclear
    obtain ⟨user', -, rfl⟩ := onUser_ok h
    exact ⟨rfl, rfl⟩

/-- **A demonstration**: its database, and what is said in it. -/
theorem collectOracleExample_spec (hsteady : Steady dom shared)
    (h : collectOracleExample py dom system useUserSim taskId ⟨loaded dom shared, [], user⟩ =
      (.ok row, env)) :
    env.toMemory = demonstrated dom shared ∧ env.actions = [] ∧ row.success = true ∧
      row.reward = .fin 1 ∧
      ∃ messages, saidBy messages = dom.task.actions.map (said shared) ∧
        (endsWithAssistant messages = true ↔ EndsWithRespond dom.task.actions) ∧
        row.messages = closeOracle dom.task.outputs messages := by
  obtain ⟨first, env₁, hstart, h⟩ := bind_run_ok.mp h
  obtain ⟨hmemory, hactions⟩ := oracleStart_ok hstart
  obtain ⟨messages, hloop, hsaid, hends⟩ := oracleLoop_spec py dom taskId hsteady
    dom.task.actions [] 0 [systemMessage system, userMessage first] env₁ List.prefix_rfl hmemory
  rw [bind_run_of_ok hloop] at h
  obtain ⟨hrow, rfl⟩ := Prod.mk.inj h
  obtain rfl := Except.ok.inj hrow
  refine ⟨rfl, hactions, rfl, rfl, messages, hsaid, ?_, rfl⟩
  have hstart : endsWithAssistant [systemMessage system, userMessage first] = false := rfl
  simp [hends, hstart]

/-- Something that is said is in a message of the assistant. -/
theorem exists_mem_saidBy {messages : List Message} {P : PyVal → Prop} :
    (∃ content ∈ saidBy messages, P content) ↔
      ∃ message ∈ messages, isAssistant message = true ∧ P (dictGet message "content") := by
  constructor
  · rintro ⟨content, hcontent, hP⟩
    obtain ⟨message, hmessage, rfl⟩ := List.mem_map.mp hcontent
    obtain ⟨hmem, hassistant⟩ := List.mem_filter.mp hmessage
    exact ⟨message, hmem, hassistant, hP⟩
  · rintro ⟨message, hmem, hassistant, hP⟩
    exact ⟨_, List.mem_map_of_mem (List.mem_filter.mpr ⟨hmem, hassistant⟩), hP⟩

/-- What is said after the last message. -/
theorem saidBy_closeOracle {outputs : List PyStr} {messages : List Message} :
    saidBy (closeOracle outputs messages) =
      if endsWithAssistant messages then saidBy messages
      else saidBy messages ++ [.str (PyStr.ofString "The requested change has been completed." ++
        if outputs = [] then [] else
          PyStr.ofString " " ++ List.intercalate (PyStr.ofString " ") outputs)] := by
  rw [closeOracle]
  by_cases hends : endsWithAssistant messages = true
  · rw [if_pos hends, if_pos (decide_eq_true_iff.mp hends)]
  · rw [if_neg hends, if_neg fun h => hends (decide_eq_true_iff.mpr h)]
    exact saidBy_append _ _

/-- The last message is written for the outputs, but only if there is one. -/
theorem closeOracle_mentions_iff (hpy : LowersWords py) {outputs : List PyStr}
    (hcomma : ∀ output ∈ outputs, ch ',' ∉ output) (messages : List Message) :
    (∀ output ∈ outputs, ∃ content ∈ saidBy (closeOracle outputs messages),
        Mentions py output content) ↔
      ¬endsWithAssistant messages = true ∨
        ∀ output ∈ outputs, ∃ content ∈ saidBy messages, Mentions py output content := by
  rw [saidBy_closeOracle]
  by_cases hends : endsWithAssistant messages = true
  · rw [if_pos hends, or_iff_right (not_not.mpr hends)]
  · rw [if_neg hends]
    refine iff_of_true (fun output hmem => ?_) (.inl hends)
    exact ⟨_, List.mem_append_right _ (List.mem_singleton_self _),
      mentions_final hpy (hcomma output hmem) hmem⟩

/-- The database of a replay is the demonstrated one if what is made again changes nothing. -/
theorem calculateReward_data_iff (hterminal : TerminalsKeep dom)
    (hundisturbed : ∀ depth, Undisturbed dom shared (remade dom shared depth))
    (hmemory : env.toMemory = demonstrated dom shared) (depth : ℕ) :
    (∃ result env', calculateReward py dom depth env = (.ok result, env') ∧ env'.data = env.data) ↔
      ∃ calls user, (∃ result env', calculateReward py dom depth env = (.ok result, env')) ∧
        remade dom shared depth env.user = some (calls, user) ∧
        (afterCalls dom shared (dom.task.actions ++ calls)).data =
          (demonstrated dom shared).data := by
  have hshared : env.shared = shared :=
    (congrArg Memory.shared hmemory).trans ((hundisturbed 0).steady _ List.prefix_rfl)
  have hreplays : Replays dom shared (remade dom shared depth) (calculateReward py dom depth) :=
    calculateReward_data hterminal hundisturbed depth
  constructor
  · rintro ⟨result, env', hrun, hsame⟩
    obtain ⟨calls, hremade, hreplay⟩ := hreplays env result env' hshared hrun
    refine ⟨calls, env'.user, ⟨result, env', hrun⟩, hremade, ?_⟩
    rw [← hreplay, hsame, hmemory]
  · rintro ⟨calls, user, ⟨result, env', hrun⟩, hremade, hnone⟩
    obtain ⟨calls', hremade', hreplay⟩ := hreplays env result env' hshared hrun
    rw [hremade] at hremade'
    obtain ⟨rfl, -⟩ := Prod.mk.inj (Option.some.inj hremade')
    refine ⟨result, env', hrun, ?_⟩
    rw [hreplay, hnone, hmemory]

theorem oracleScored_iff (hpy : LowersWords py) (hterminal : TerminalsKeep dom)
    (hundisturbed : ∀ depth, Undisturbed dom shared (remade dom shared depth))
    (hcomma : ∀ output ∈ dom.task.outputs, ch ',' ∉ output)
    (h : collectOracleExample py dom system useUserSim taskId ⟨loaded dom shared, [], user⟩ =
      (.ok row, env)) :
    OracleScored py dom row env ↔ OracleSound py dom env := by
  obtain ⟨hmemory, -, -, -, messages, hsaid, hends, hmessages⟩ :=
    collectOracleExample_spec (hundisturbed 0).steady h
  have hshared : env.shared = shared :=
    (congrArg Memory.shared hmemory).trans ((hundisturbed 0).steady _ List.prefix_rfl)
  have houtputs := closeOracle_mentions_iff hpy hcomma messages
  rw [hsaid, hends, ← hmessages, ← hshared] at houtputs
  simp only [exists_mem_saidBy, List.mem_map, exists_exists_and_eq_and] at houtputs
  have hdatabase : ∀ depth, (∃ result env', calculateReward py dom depth env = (.ok result, env') ∧
      env'.data = env.data) ↔ _ := calculateReward_data_iff hterminal hundisturbed hmemory
  rw [← hshared] at hdatabase
  constructor
  · rintro ⟨⟨depth, hreplay⟩, hout⟩
    exact ⟨⟨depth, (hdatabase depth).mp hreplay⟩, houtputs.mp hout⟩
  · rintro ⟨⟨depth, hreplay⟩, hout⟩
    exact ⟨⟨depth, (hdatabase depth).mpr hreplay⟩, houtputs.mpr hout⟩

/-- A response with a text. -/
def Speaks (shared : Shared) (action : Action) : Prop :=
  action.name = RESPOND_ACTION_NAME →
    ∃ text, kwarg (shared.read action.kwargs) "content" = .ok (.str text)

/-- Looking for an output in texts does not raise. -/
theorem found_ok (memory : Memory δ) (output : PyStr) {actions : List Action}
    (h : ∀ a ∈ actions, Speaks memory.shared a) : ∃ b, found py memory output actions = .ok b := by
  induction actions with
  | nil => exact ⟨false, rfl⟩
  | cons action actions ih =>
    obtain ⟨haction, hactions⟩ := List.forall_mem_cons.mp h
    rw [found]
    split
    · next hrespond =>
      obtain ⟨text, htext⟩ := haction hrespond
      have hmentions : ∃ b, mentions py memory output action = .ok b := by
        rw [mentions, Memory.read, htext]
        exact ⟨_, rfl⟩
      obtain ⟨b, hb⟩ := hmentions
      rw [hb, ok_bind]
      split
      · exact ⟨true, rfl⟩
      · exact ih hactions
    · exact ih hactions

/-- A computation of a reward returns where the user's side of it does, and what it records are
responses with a text. -/
def Answers (shared : Shared) (nested : υ → Option (List Action × υ))
    (calculate : EnvProg δ υ RewardResult) : Prop :=
  ∀ env calls user, env.shared = shared → nested env.user = some (calls, user) →
    (∀ a ∈ env.actions, Speaks shared a) →
    ∃ result env', calculate env = (.ok result, env') ∧ env'.user = user ∧
      ∀ a ∈ env'.actions, Speaks shared a

section Answers

variable {nested : υ → Option (List Action × υ)} {calculate : EnvProg δ υ RewardResult}

/-- One action of a replay returns where the user's side of it does. -/
theorem replayAction_run (hanswers : Answers shared nested calculate) {action : Action}
    (haction : Speaks shared action) (hshared : env.shared = shared)
    {calls calls' : Option (List Action)} {user : υ}
    (h : remadeAction dom shared nested (calls, env.user) action = some (calls', user))
    (hpast : ∀ a ∈ env.actions, Speaks shared a) :
    ∃ env', replayAction dom (stepWith dom calculate) action env = (.ok (), env') ∧
      env'.user = user ∧ ∀ a ∈ env'.actions, Speaks shared a := by
  have hadded : ∀ a ∈ env.actions ++ [action], Speaks shared a :=
    List.forall_mem_append.mpr ⟨hpast, List.forall_mem_singleton.mpr haction⟩
  rw [remadeAction] at h
  rw [replayAction]
  by_cases hskip : dom.terminate_tools.contains action.name = true
  · rw [if_pos hskip] at h ⊢
    exact ⟨env, rfl, congrArg Prod.snd (Option.some.inj h), hpast⟩
  rw [if_neg hskip] at h ⊢
  rw [bind_run, stepWith, addAction, modify_bind_run]
  by_cases hrespond : action.name = RESPOND_ACTION_NAME
  · obtain ⟨text, htext⟩ := haction hrespond
    rw [if_pos hrespond] at h ⊢
    simp only [htext] at h
    rcases hstep : dom.user.step (.str text) env.user with ⟨e | observation, user₁⟩
    · rw [hstep] at h
      cases h
    simp only [hstep] at h
    rw [← hshared] at htext
    have hlift : (lift (kwarg (env.read action.kwargs) "content") : EnvProg δ υ PyVal)
        ⟨env.toMemory, env.actions ++ [action], env.user⟩ =
          (.ok (.str text), ⟨env.toMemory, env.actions ++ [action], env.user⟩) :=
      congrArg (·, _) htext
    have hanswer : (onUser (dom.user.step (.str text)) : EnvProg δ υ PyStr)
        ⟨env.toMemory, env.actions ++ [action], env.user⟩ =
          (.ok observation, ⟨env.toMemory, env.actions ++ [action], user₁⟩) := by
      rw [onUser, zoom, hstep]
    rw [get_bind_run, bind_run_of_ok hlift, bind_run_of_ok hanswer]
    by_cases hstop : isSubstr "###STOP###" observation = true
    · rw [if_pos hstop] at h
      obtain ⟨⟨again, user₂⟩, hnested, heq⟩ := Option.map_eq_some_iff.mp h
      obtain ⟨-, rfl⟩ := Prod.mk.inj heq
      obtain ⟨result, env', hcalculate, huser, hpast'⟩ := hanswers
        ⟨env.toMemory, env.actions ++ [action], user₁⟩ again user₂ hshared hnested hadded
      rw [hstop, finishStep, if_pos rfl, bind_run_of_ok hcalculate]
      exact ⟨env', rfl, huser, hpast'⟩
    · rw [if_neg hstop] at h
      rw [Bool.eq_false_iff.mpr hstop]
      exact ⟨_, rfl, congrArg Prod.snd (Option.some.inj h), hadded⟩
  · rw [if_neg hrespond] at h ⊢
    have huser : env.user = user := congrArg Prod.snd (Option.some.inj h)
    rcases dom.tools_map.lookup action.name with _ | tool
    · exact ⟨_, rfl, huser, hadded⟩
    · dsimp only
      rw [bind_run_of_ok (invoke_run tool action.kwargs _), Bool.eq_false_iff.mpr hskip]
      exact ⟨_, rfl, huser, hadded⟩

/-- A pass returns where the user's side of it does. -/
theorem replay_run (hterminal : TerminalsKeep dom) (hundisturbed : Undisturbed dom shared nested)
    (hnested : Replays dom shared nested calculate) (hanswers : Answers shared nested calculate)
    (htask : ∀ a ∈ dom.task.actions, Speaks shared a) {actions : List Action} :
    ∀ (past : List Action) (env : Env δ υ) {calls calls' : Option (List Action)} {user : υ},
      past ++ actions <+: dom.task.actions → Tracks dom shared nested past env calls →
      actions.foldlM (remadeAction dom shared nested) (calls, env.user) = some (calls', user) →
      (∀ a ∈ env.actions, Speaks shared a) →
      ∃ env', forEach (replayAction dom (stepWith dom calculate)) actions env = (.ok (), env') ∧
        env'.user = user ∧ ∀ a ∈ env'.actions, Speaks shared a := by
  induction actions with
  | nil =>
    intro past env calls calls' user _ _ h hpast
    exact ⟨env, rfl, congrArg Prod.snd (Option.some.inj h), hpast⟩
  | cons action actions ih =>
    intro past env calls calls' user hactions htracks h hpast
    have hbefore : past <+: dom.task.actions := (List.prefix_append _ _).trans hactions
    have haction : action ∈ dom.task.actions :=
      hactions.subset (List.mem_append_right _ List.mem_cons_self)
    have hassoc : past ++ action :: actions = (past ++ [action]) ++ actions := by
      rw [List.append_assoc]
      rfl
    rw [hassoc] at hactions
    rw [List.foldlM_cons] at h
    obtain ⟨⟨calls₁, user₁⟩, hone, h⟩ := Option.bind_eq_some_iff.mp h
    obtain ⟨env₁, hrun, rfl, hpast₁⟩ := replayAction_run hanswers
      (htask action haction) (htracks.undisturbed hundisturbed hbefore)
      hone hpast
    -- the memory is still that of the task's own calls
    obtain ⟨calls₂, htwo, htracks₁⟩ :=
      replayAction_ok hterminal hundisturbed hnested hbefore htracks hrun
    rw [hone] at htwo
    obtain ⟨rfl, -⟩ := Prod.mk.inj (Option.some.inj htwo)
    obtain ⟨env', hloop, huser, hpast'⟩ := ih (past ++ [action]) env₁ hactions htracks₁ h hpast₁
    exact ⟨env', (bind_run_of_ok hrun).trans hloop, huser, hpast'⟩

end Answers

/-- **A reward can be computed** where the user's side of the replay returns, if databases can be
hashed and responses are texts. -/
theorem calculateReward_answers (hterminal : TerminalsKeep dom)
    (hundisturbed : ∀ depth, Undisturbed dom shared (remade dom shared depth))
    (hhash : ∀ data, ∃ hash, dom.data_hash data = .ok hash)
    (htask : ∀ a ∈ dom.task.actions, Speaks shared a) : ∀ depth : ℕ,
    Answers shared (remade dom shared depth) (calculateReward py dom depth) := by
  intro depth
  induction depth with
  | zero =>
    intro env calls user _ h
    cases h
  | succ depth ih =>
    intro env calls user hshared h hpast
    obtain ⟨⟨again, user₁⟩, hpass, heq⟩ := Option.map_eq_some_iff.mp h
    obtain ⟨-, rfl⟩ := Prod.mk.inj heq
    have hreplays : ∀ depth, Replays dom shared (remade dom shared depth)
        (calculateReward py dom depth) := calculateReward_data hterminal hundisturbed
    have hstart : Tracks dom shared (remade dom shared depth) []
        { env with toMemory := loaded dom env.shared } none := by
      refine tracks_nil ?_
      rw [hshared]
    obtain ⟨env', hloop, huser, hpast'⟩ :=
      replay_run hterminal (hundisturbed depth) (hreplays depth)
      ih htask [] { env with toMemory := loaded dom env.shared } List.prefix_rfl hstart hpass hpast
    obtain ⟨calls', -, htracks⟩ :=
      replay_ok hterminal (hundisturbed depth) (hreplays depth) List.prefix_rfl hstart hloop
    have hshared' : env'.shared = shared := htracks.undisturbed (hundisturbed depth) List.prefix_rfl
    obtain ⟨hash, hhash₁⟩ := hhash env.data
    obtain ⟨gt_hash, hhash₂⟩ := hhash env'.data
    obtain ⟨founds, hfounds⟩ : ∃ founds, dom.task.outputs.mapM (fun output =>
        found py env'.toMemory output env'.actions) = .ok founds :=
      exists_mapM fun output _ => found_ok env'.toMemory output fun a ha => hshared' ▸ hpast' a ha
    have hbefore : getDataHash dom env = (.ok hash, env) := congrArg (·, env) hhash₁
    have hafter : getDataHash dom env' = (.ok gt_hash, env') := congrArg (·, env') hhash₂
    rw [calculateReward, calculateWith, bind_run_of_ok hbefore, setData, modify_bind_run]
    show ∃ result env'', (forEach (replayAction dom (stepWith dom (calculateReward py dom depth)))
      dom.task.actions >>= _) _ = (.ok result, env'') ∧ _
    rw [show Memory.renew _ _ = loaded dom env.shared from rfl, bind_run_of_ok hloop,
      bind_run_of_ok hafter]
    by_cases hempty : dom.task.outputs.isEmpty = true
    · rw [if_pos hempty]
      exact ⟨_, env', rfl, huser, hpast'⟩
    · rw [if_neg hempty, get_bind_run, hfounds]
      exact ⟨_, env', rfl, huser, hpast'⟩

/-- An action that the user lets pass: a response with a text that is answered, whatever was said
before, and not with the end of the episode. -/
def Quiet (dom : Domain δ υ) (shared : Shared) (action : Action) : Prop :=
  action.name = RESPOND_ACTION_NAME →
    ∃ text, kwarg (shared.read action.kwargs) "content" = .ok (.str text) ∧
    ∀ memory, ∃ observation memory', dom.user.step (.str text) memory = (.ok observation, memory') ∧
      isSubstr "###STOP###" observation = false

theorem Quiet.speaks {action : Action} (h : Quiet dom shared action) : Speaks shared action :=
  fun hrespond => (h hrespond).imp fun _ => And.left

/-- A quiet user stops no pass. -/
theorem foldlM_of_quiet {nested : υ → Option (List Action × υ)} {actions : List Action}
    (h : ∀ a ∈ actions, Quiet dom shared a) (user : υ) :
    ∃ user', actions.foldlM (remadeAction dom shared nested) (none, user) = some (none, user') := by
  induction actions generalizing user with
  | nil => exact ⟨user, rfl⟩
  | cons action actions ih =>
    obtain ⟨haction, hactions⟩ := List.forall_mem_cons.mp h
    have hone : ∃ user₁, remadeAction dom shared nested (none, user) action =
        some (none, user₁) := by
      rw [remadeAction]
      split
      · exact ⟨user, rfl⟩
      · split
        · next hrespond =>
          obtain ⟨text, htext, hanswer⟩ := haction hrespond
          obtain ⟨observation, user₁, hstep, hstop⟩ := hanswer user
          simp only [htext, hstep, hstop]
          exact ⟨user₁, rfl⟩
        · exact ⟨user, rfl⟩
    obtain ⟨user₁, hone⟩ := hone
    rw [List.foldlM_cons, hone]
    exact ih hactions user₁

/-- Then no call is made again. -/
theorem remade_of_quiet (h : ∀ a ∈ dom.task.actions, Quiet dom shared a) (depth : ℕ) (user : υ) :
    ∃ user', remade dom shared (depth + 1) user = some ([], user') := by
  obtain ⟨user', huser⟩ := foldlM_of_quiet h user
  exact ⟨user', by rw [remade, huser]; rfl⟩

theorem undisturbed_of_quiet (hsteady : Steady dom shared)
    (h : ∀ a ∈ dom.task.actions, Quiet dom shared a) (nested : υ → Option (List Action × υ)) :
    Undisturbed dom shared nested where
  steady := hsteady
  again := by
    intro past calls user user' hpast hstopped
    obtain ⟨user₁, hquiet⟩ := foldlM_of_quiet (fun a ha => h a (hpast.subset ha)) user
    rw [hquiet] at hstopped
    cases hstopped

/-- **A quiet task** whose calls, in order, leave its arguments as they were, and whose database can
be hashed, is labelled right exactly when its last action is not a response or the responses have
the outputs. -/
theorem oracleScored_iff_of_quiet (hpy : LowersWords py) (hterminal : TerminalsKeep dom)
    (hsteady : Steady dom shared) (hcomma : ∀ output ∈ dom.task.outputs, ch ',' ∉ output)
    (hhash : ∀ data, ∃ hash, dom.data_hash data = .ok hash)
    (hquiet : ∀ a ∈ dom.task.actions, Quiet dom shared a)
    (h : collectOracleExample py dom system useUserSim taskId ⟨loaded dom shared, [], user⟩ =
      (.ok row, env)) :
    OracleScored py dom row env ↔ ¬EndsWithRespond dom.task.actions ∨
      ∀ output ∈ dom.task.outputs, ∃ action ∈ dom.task.actions,
        Mentions py output (said shared action) := by
  obtain ⟨hmemory, hactions, -⟩ := collectOracleExample_spec hsteady h
  have hshared : env.shared = shared :=
    (congrArg Memory.shared hmemory).trans (hsteady _ List.prefix_rfl)
  rw [oracleScored_iff hpy hterminal (fun _ => undisturbed_of_quiet hsteady hquiet _) hcomma h,
    ← hshared]
  constructor
  · exact OracleSound.outputs
  · intro hout
    rw [← hshared] at hsteady hquiet
    obtain ⟨user', hremade⟩ := remade_of_quiet hquiet 0 env.user
    have hpast : ∀ a ∈ env.actions, Speaks env.shared a := by
      rw [hactions]
      exact fun a ha => absurd ha List.not_mem_nil
    obtain ⟨result, env', hrun, -⟩ := calculateReward_answers hterminal
      (fun _ => undisturbed_of_quiet hsteady hquiet _) hhash
        (fun a ha => (hquiet a ha).speaks) 1 env []
      user' rfl hremade hpast
    refine ⟨⟨1, [], user', ⟨result, env', hrun⟩, hremade, ?_⟩, hout⟩
    rw [List.append_nil]
    rfl

end Label

/-! ### Two tasks -/

/-- A counter as a database, and a user who never stops. -/
def counterDomain (actions : List Action) (outputs : List PyStr) : Domain ℕ Unit where
  data_load := 0
  tools_map := [("increment", byValue fun _ n => (.ok "incremented", n + 1))]
  terminate_tools := ["transfer_to_human_agents"]
  task := ⟨"user", actions, "Increment the counter.", outputs⟩
  user := ⟨fun _ memory => (.ok "Hello.", memory), fun _ memory => (.ok "Thanks.", memory), fun _ => 0⟩
  data_hash n := .ok (natRepr n)
  refresh memory := memory.data

def respond (text : PyStr) : Action := ⟨RESPOND_ACTION_NAME, .own [("content", .str text)]⟩

/-- A task whose last response has the output, split by a comma, and one whose response does not
have it. -/
abbrev answered : Domain ℕ Unit :=
  counterDomain [⟨"increment", .own []⟩, respond "It is 4,2 now."] ["42"]

end Collect

end ToolAgent
