import ToolAgent.TauBench.Env
import ToolAgent.ToolArguments

/-!
# Tool calls of a rollout

`toolagent.verl_integration.tools`: a tool call of the policy is decoded, executed against the
environment of the rollout, and recorded in the state of the rollout.

The raw parameters of a call are a value, such as a string of JSON, or a dictionary that is held
elsewhere too: the policy's own calls are decoded anew, and the actions that are recorded for a
replay are objects that several rollouts are started with.

A terminal tool does not go through `Env.step`. It is executed here, the reward is computed, and the
database and the list of actions are put back to what the tool left.

## Main definitions

* `Parameters` — the raw parameters of a call
* `State`, `Instance` — the state of a rollout, and its environment
* `executeTauToolAction`, `execute` — one tool call

## Main results

* `executeTauToolAction_rewarded` — the reward of a call is `0` or `1`, and `0` unless it is done
* `execute_cases` — what one call does to the state
* `terminal_tool_restores` — a terminal tool leaves nothing of the computation of its reward
-/

namespace ToolAgent

namespace Integration

open Python Prog TauBench ToolArguments

variable {δ υ : Type}

/-! ### Parameters -/

/-- The parameters of a call: a value that is the call's own, or a dictionary that is held elsewhere
too. -/
inductive Parameters where
  | value (v : PyVal)
  | shared (address : ℕ)

/-- `parse_tool_parameters`: a dictionary is taken as it is. -/
def Parameters.parse (py : Interp) : Parameters → Except PyStr Args
  | .value v => (parseToolParameters py v).map .own
  | .shared address => .ok (.shared address)

/-- The parameters that a decoded call is recorded with. -/
def ofArgs : Args → Parameters
  | .own kwargs => .value (.dict kwargs)
  | .shared address => .shared address

/-! ### The state of a rollout -/

/-- The keys of the state that identify the rollout. -/
structure Ident where
  instance_id : PyStr
  trace_id : PyStr
  task_id : ℤ
  env_id : ℕ

/-- An entry of `action_history`. -/
structure HistoryEntry where
  tool : PyStr
  parameters : Parameters
  observation_preview : PyStr
  is_error : Bool

structure State where
  ident : Ident
  total_reward : ℚ
  num_tool_calls : ℕ
  num_user_turns : ℕ
  done : Bool
  action_history : List HistoryEntry

/-- A started rollout. -/
structure Instance (δ υ : Type) where
  env : Env δ υ
  state : State

/-- Count a tool call and append it to the history. -/
def State.record (state : State) (tool : PyStr) (parameters : Parameters) (obs : PyStr)
    (is_error : Bool) : State :=
  { state with
    num_tool_calls := state.num_tool_calls + 1
    action_history := state.action_history ++ [⟨tool, parameters, obs, is_error⟩] }

/-- Credit a reward. -/
def State.credit (state : State) (inc_reward : ℚ) (is_done : Bool) : State :=
  { state with
    total_reward := state.total_reward + inc_reward
    done := state.done || is_done }

/-! ### One tool call -/

/-- The dictionary that comes with a tool's response. -/
structure ToolInfo where
  inc_reward : ℚ
  done : Bool
  tool : PyStr
  error : Option PyStr
  ident : Ident

/-- `str(env.tools_map[action.name].invoke(...))`, with the text of any exception. -/
def terminalObservation (dom : Domain δ υ) (action : Action) : EnvProg δ υ PyStr :=
  match dom.tools_map.lookup action.name with
  | some tool => invoke tool action.kwargs
  | none => pure ("Error: '" ++ action.name ++ "'")

/-- The observation, the reward, whether the episode is done, and a copy of the database after the
call. -/
def executeTauToolAction (py : Interp) (dom : Domain δ υ) (depth : ℕ) (action : Action) :
    EnvProg δ υ (PyStr × ℚ × Bool × δ) :=
  if dom.terminate_tools.contains action.name then do
    addAction action
    let observation ← terminalObservation dom action
    let post ← get
    let reward_result ← ensure (calculateReward py dom depth) fun env =>
      { env with toMemory := env.renew post.data, actions := env.actions.take post.actions.length }
    pure (observation, reward_result.reward, true, post.data)
  else do
    let step_res ← step py dom depth action
    let env ← get
    pure (step_res.observation, step_res.reward, step_res.done, env.data)

/-- `TauBenchToolBase.execute` of the tool `name`, in the context of the rollout `inst`. -/
def execute (py : Interp) (dom : Domain δ υ) (depth : ℕ) (name : PyStr)
    (parameters : Parameters) (inst : Instance δ υ) : (PyStr × ToolInfo) × Instance δ υ :=
  match parameters.parse py with
  | .error parse_error =>
    let obs := "Error: " ++ parse_error
    ((obs, ⟨0, false, name, some "invalid_tool_arguments", inst.state.ident⟩),
      { inst with state := inst.state.record name parameters obs true })
  | .ok args =>
    match executeTauToolAction py dom depth ⟨name, args⟩ inst.env with
    | (.error exc, env) =>
      let obs := "Error: " ++ exc.describe
      ((obs, ⟨0, false, name, some exc.cls.name, inst.state.ident⟩),
        ⟨env, inst.state.record name (ofArgs args) obs true⟩)
    | (.ok (obs, inc_reward, is_done, _), env) =>
      ((obs, ⟨inc_reward, is_done, name, none, inst.state.ident⟩),
        ⟨env, (inst.state.record name (ofArgs args) obs
          ((PyStr.ofString "Error:").isPrefixOf obs)).credit inc_reward is_done⟩)

/-! ### What a call can do -/

section Execute

variable {py : Interp} {dom : Domain δ υ} {depth : ℕ}

/-- **The reward of a call** is `0` or `1`, `0` unless the call is done, and only an ending action
is done. -/
theorem executeTauToolAction_rewarded (action : Action) :
    Returns (executeTauToolAction py dom depth action) fun r =>
      (r.2.1 = 0 ∨ r.2.1 = 1) ∧ (r.2.2.1 = false → r.2.1 = 0) ∧
        (r.2.2.1 = true → Ending dom action.name) := by
  rw [executeTauToolAction]
  split
  · next hterminal =>
    refine .bind_last fun _ => .bind_last fun observation => .bind_last fun post => ?_
    refine (calculateReward_mem depth).ensure.bind fun reward hreward => .pure ?_
    exact ⟨hreward, fun h => (by cases h), fun _ => .inr (by simpa using hterminal)⟩
  · refine (step_response depth action).bind fun r hr => .bind_last fun env => .pure ?_
    exact ⟨hr.1.1, hr.1.2, hr.2⟩

/-- **One call, seen from the state**: the reward and the flag either stay, or are credited by the
rules above. -/
theorem execute_cases (name : PyStr) (parameters : Parameters) (inst : Instance δ υ) :
    let state := (execute py dom depth name parameters inst).2.state
    (state.total_reward = inst.state.total_reward ∧ state.done = inst.state.done) ∨
      ∃ args reward is_done, parameters.parse py = .ok args ∧
        state.total_reward = inst.state.total_reward + reward ∧
        state.done = (inst.state.done || is_done) ∧ (reward = 0 ∨ reward = 1) ∧
        (is_done = false → reward = 0) ∧ (is_done = true → Ending dom name) := by
  intro state
  rcases hparse : parameters.parse py with e | args
  · exact .inl (by simp [state, execute, hparse, State.record])
  rcases hrun : executeTauToolAction py dom depth ⟨name, args⟩ inst.env with
    ⟨exc | ⟨obs, reward, is_done, data⟩, env⟩
  · exact .inl (by simp [state, execute, hparse, hrun, State.record])
  · obtain ⟨hmem, hzero, hending⟩ := executeTauToolAction_rewarded _ _ _ _ hrun
    refine .inr ⟨args, reward, is_done, rfl, ?_, ?_, hmem, hzero, hending⟩
    · simp [state, execute, hparse, hrun, State.record, State.credit]
    · simp [state, execute, hparse, hrun, State.record, State.credit]

/-! ### Terminal tools

The computation of the reward reloads the database and replays the task's own actions. The wrapper
puts both back. -/

/-- The environment right after the invocation of a tool. -/
def afterTool (tool : Tool δ) (action : Action) (env : Env δ υ) : Env δ υ :=
  ⟨(tool action.kwargs env.toMemory).2, env.actions ++ [action], env.user⟩

/-- The clean-up after the computation of a reward. -/
def putBack (post env : Env δ υ) : Env δ υ :=
  { env with toMemory := env.renew post.data, actions := env.actions.take post.actions.length }

section Terminal

variable {action : Action} {tool : Tool δ}

theorem executeTauToolAction_terminal (htool : dom.tools_map.lookup action.name = some tool)
    (hterminal : action.name ∈ dom.terminate_tools) (env : Env δ υ) :
    executeTauToolAction py dom depth action env =
      ((calculateReward py dom depth (afterTool tool action env)).1.map fun r =>
          (invokeText tool action.kwargs env.toMemory, r.reward, true,
            (tool action.kwargs env.toMemory).2.data),
        putBack (afterTool tool action env)
          (calculateReward py dom depth (afterTool tool action env)).2) := by
  have hcontains : dom.terminate_tools.contains action.name = true := by simpa using hterminal
  rw [executeTauToolAction, if_pos hcontains, terminalObservation, htool]
  show (invoke tool action.kwargs >>= _ : EnvProg δ υ _)
    ⟨env.toMemory, env.actions ++ [action], env.user⟩ = _
  rw [bind_run_of_ok (invoke_run tool action.kwargs _)]
  show (ensure (calculateReward py dom depth) _ >>= _ : EnvProg δ υ _) (afterTool tool action env) =
    _
  rw [bind_run, ensure]
  rcases calculateReward py dom depth (afterTool tool action env) with ⟨e | reward_result, env'⟩
  · rfl
  · rfl

theorem step_terminal (htool : dom.tools_map.lookup action.name = some tool)
    (hterminal : action.name ∈ dom.terminate_tools) (hname : action.name ≠ RESPOND_ACTION_NAME)
    (env : Env δ υ) :
    step py dom depth action env =
      finishStep dom (calculateReward py dom depth) (invokeText tool action.kwargs env.toMemory)
        action.name true (afterTool tool action env) := by
  have hcontains : dom.terminate_tools.contains action.name = true := by simpa using hterminal
  rw [step, stepWith, if_neg hname, htool, hcontains]
  show (invoke tool action.kwargs >>= _ : EnvProg δ υ _)
    ⟨env.toMemory, env.actions ++ [action], env.user⟩ = _
  rw [bind_run_of_ok (invoke_run tool action.kwargs _)]
  rfl

/-- **No oracle leak.** After the call of a terminal tool the database is what the tool left and the
list of actions has grown by the call, also when the tool or the computation of the reward raised.
When the reward is computed, it is the one that `step` computes, `respond` being reserved for the
user. -/
theorem terminal_tool_restores (htool : dom.tools_map.lookup action.name = some tool)
    (hterminal : action.name ∈ dom.terminate_tools) (env : Env δ υ) :
    let left := (tool action.kwargs env.toMemory).2
    let out := executeTauToolAction py dom depth action env
    out.2.data = left.data ∧ out.2.actions = env.actions ++ [action] ∧
      (RESPOND_ACTION_NAME ∉ dom.terminate_tools → ∀ reward_result,
        (calculateReward py dom depth ⟨left, env.actions ++ [action], env.user⟩).1 =
            .ok reward_result →
          ∃ observation step_res, (step py dom depth action env).1 = .ok step_res ∧
            out.1 = .ok (observation, step_res.reward, step_res.done, left.data)) := by
  intro left out
  have hout : out = _ := executeTauToolAction_terminal htool hterminal env
  have hprefix : env.actions ++ [action] <+:
      (calculateReward py dom depth (afterTool tool action env)).2.actions :=
    calculateReward_keeps depth _ List.prefix_rfl
  refine ⟨congrArg (·.2.data) hout, (congrArg (·.2.actions) hout).trans ?_, ?_⟩
  · exact (List.prefix_iff_eq_take.mp hprefix).symm
  · intro hreserved reward_result hreturns
    have hname : action.name ≠ RESPOND_ACTION_NAME := fun h => hreserved (h ▸ hterminal)
    change (calculateReward py dom depth (afterTool tool action env)).1 = _ at hreturns
    rw [step_terminal htool hterminal hname env, hout, hreturns]
    obtain ⟨step_res, hfinish, hreward, hdone⟩ := finishStep_done dom hreturns
      (invokeText tool action.kwargs env.toMemory) action.name
    refine ⟨invokeText tool action.kwargs env.toMemory, step_res, hfinish, ?_⟩
    rw [hreward, hdone]
    rfl

end Terminal

end Execute

/-! ### A task that asks for a transfer -/

/-- A database of one state, so that every episode that ends is rewarded. -/
def sampleDomain : Domain Unit Unit where
  data_load := ()
  tools_map := [("transfer_to_human_agents", byValue fun _ => pure "Transfer successful")]
  terminate_tools := ["transfer_to_human_agents"]
  task := ⟨"mia_li_3668", [], "Ask for a human agent.", []⟩
  user := ⟨fun _ => pure "I want to talk to a human.", fun _ => pure "Thanks.", fun _ => 0⟩
  data_hash _ := .ok "5feceb66"
  refresh memory := memory.data

/-- A number that the task has counted up. -/
def countDomain : Domain ℕ Unit where
  data_load := 0
  tools_map :=
    [("count", byValue fun _ n => (.ok "Counted", n + 1)),
      ("transfer_to_human_agents", byValue fun _ => pure "Transfer successful")]
  terminate_tools := ["transfer_to_human_agents"]
  task := ⟨"mia_li_3668", [⟨"count", .own []⟩], "Count, and ask for a human agent.", []⟩
  user := ⟨fun _ => pure "Please count.", fun _ => pure "Thanks.", fun _ => 0⟩
  data_hash n := .ok [n]
  refresh memory := memory.data

/-- The transfer of a rollout that has counted to `3`. The replay of the task comes to `1`, and
nothing of it stays. -/
theorem terminal_tool_restores_sample :
    let transfer : Action := ⟨"transfer_to_human_agents", .own [("summary", .str "transfer")]⟩
    let env : Env ℕ Unit := ⟨⟨3, [], fun _ => []⟩, [], ()⟩
    let out := executeTauToolAction .silent countDomain 9 transfer env
    (calculateReward .silent countDomain 9 env).2.data = 1 ∧
      out.2.data = 3 ∧ out.2.actions = [transfer] ∧
      ∃ observation step_res, (step .silent countDomain 9 transfer env).1 = .ok step_res ∧
        out.1 = .ok (observation, step_res.reward, step_res.done, 3) := by
  intro transfer env out
  have htool : countDomain.tools_map.lookup transfer.name =
      some (byValue fun _ => pure "Transfer successful") := rfl
  have hterminal : transfer.name ∈ countDomain.terminate_tools := by decide
  have hreserved : RESPOND_ACTION_NAME ∉ countDomain.terminate_tools := by decide
  obtain ⟨hdata, hactions, hreward⟩ := terminal_tool_restores htool hterminal env
  exact ⟨by decide +kernel, hdata, hactions,
    hreward hreserved ⟨0, .action false [1], [⟨"count", .own []⟩]⟩ rfl⟩

end Integration

end ToolAgent
