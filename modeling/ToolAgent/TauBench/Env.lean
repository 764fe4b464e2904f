import ToolAgent.Library.Prog
import ToolAgent.Python.Builtins

/-!
# The tau-bench environment

`tau_bench.envs.base.Env`: a database, the actions taken so far and a simulated user. A tool reads
and writes the database, a `respond` action goes to the user, and the reward of an episode compares
the database with the one that the task's own actions leave behind.

The database, the user's memory and the tools are parameters. A tool may raise half-way through its
writes, and the user's answer may come from a language model that cannot be reached: both are
programs with state and exceptions.

The arguments of a call are objects. Those of a task's own actions and of recorded actions are held
by several environments at once, and a tool that keeps a part of its arguments in the database may
write to it later, for all of them. Such arguments are addresses in a memory that goes with the
database.

`step` and `calculate_reward` call each other, and a task whose own actions end the episode sends
them into an unbounded recursion. They are defined by recursion on the levels that are left, and
raise `RecursionError` where there is none.

## Main definitions

* `Args`, `Memory` — arguments, and the database with the arguments that others hold too
* `Domain` — what is fixed for one task: the tools, the task, the user, the hash of a database
* `Env` — what changes
* `step`, `calculateReward` — the two methods

## Main results

* `calculateReward_mem` — a reward is `0` or `1`
* `step_response` — a step that does not end the episode has reward `0`, and only a `respond` action
  and a terminal tool can end it
* `calculateReward_keeps` — a computation of a reward only appends to the list of actions
-/

namespace ToolAgent

namespace TauBench

open Python Prog

/-- Keyword arguments. -/
abbrev Kwargs := List (PyStr × PyVal)

/-- The dictionaries of arguments that are held in several places, by their address. -/
abbrev Shared := ℕ → Kwargs

/-- The arguments of a call: a dictionary of its own, or one that others hold too. -/
inductive Args where
  | own (kwargs : Kwargs)
  | shared (address : ℕ)

structure Action where
  name : PyStr
  kwargs : Args

def RESPOND_ACTION_NAME : PyStr := "respond"

structure Task where
  user_id : PyStr
  actions : List Action
  instruction : PyStr
  outputs : List PyStr

/-- The simulated user, over a memory `υ`. -/
structure User (υ : Type) where
  reset : PyStr → Prog PyErr υ PyStr
  step : PyVal → Prog PyErr υ PyStr
  total_cost : υ → ℚ

/-- A database, and the arguments that others hold too. -/
structure Memory (δ : Type) where
  data : δ
  /-- The parts of the database, by their name, that are a part of shared arguments. -/
  links : List (PyStr × ℕ)
  shared : Shared

/-- The arguments as they are now. -/
def Shared.read (shared : Shared) : Args → Kwargs
  | .own kwargs => kwargs
  | .shared address => shared address

def Memory.read {δ : Type} (memory : Memory δ) (args : Args) : Kwargs := memory.shared.read args

/-- Another database in place of this one, with nothing in it that others hold: it was loaded, or
copied with `deepcopy`. -/
def Memory.renew {δ : Type} (memory : Memory δ) (data : δ) : Memory δ := ⟨data, [], memory.shared⟩

/-- A tool takes its arguments from the memory, and may keep parts of them in the database. -/
abbrev Tool (δ : Type) := Args → Prog PyErr (Memory δ) PyStr

/-- The part of an environment that a task fixes. `δ` is the type of the database. -/
structure Domain (δ υ : Type) where
  /-- `data_load_func()` -/
  data_load : δ
  tools_map : List (PyStr × Tool δ)
  terminate_tools : List PyStr
  task : Task
  user : User υ
  /-- `consistent_hash(to_hashable(data))` -/
  data_hash : δ → Except PyErr PyStr
  /-- The database after others have written to the arguments that parts of it belong to. -/
  refresh : Memory δ → δ

/-- The part of an environment that changes. -/
structure Env (δ υ : Type) extends Memory δ where
  actions : List Action
  user : υ

/-- What a reward was computed from. -/
inductive RewardInfo where
  | action (r_actions : Bool) (gt_data_hash : PyStr)
  | output (r_outputs : ℚ) (outputs : List (PyStr × Bool))

structure RewardResult where
  reward : ℚ
  info : RewardInfo
  actions : List Action

structure EnvInfo where
  source : PyStr
  reward_info : Option RewardResult := none
  user_cost : Option ℚ := none

structure EnvResponse where
  observation : PyStr
  reward : ℚ
  done : Bool
  info : EnvInfo

variable {δ υ : Type}

abbrev EnvProg (δ υ : Type) := Prog PyErr (Env δ υ)

/-- A program on the memory. -/
def onMemory {α : Type} (m : Prog PyErr (Memory δ) α) : EnvProg δ υ α :=
  zoom Env.toMemory (fun env memory => { env with toMemory := memory }) m

/-- A program on the user's memory. -/
def onUser {α : Type} (m : Prog PyErr υ α) : EnvProg δ υ α :=
  zoom Env.user (fun env user => { env with user := user }) m

/-- `self.data = data`, for data that nobody else holds. -/
def setData (data : δ) : EnvProg δ υ Unit :=
  modify fun env => { env with toMemory := env.renew data }

def addAction (action : Action) : EnvProg δ υ Unit :=
  modify fun env => { env with actions := env.actions ++ [action] }

/-- `self.get_data_hash()` -/
def getDataHash (dom : Domain δ υ) : EnvProg δ υ PyStr := do
  let env ← get
  lift (dom.data_hash env.data)

/-- `kwargs[key]` -/
def kwarg (kwargs : Kwargs) (key : PyStr) : Except PyErr PyVal :=
  match kwargs.lookup key with
  | some v => .ok v
  | none => .error ⟨.keyError, "'" ++ key ++ "'"⟩

/-- `self.tools_map[action.name].invoke(data=self.data, **action.kwargs)`, with the text of an
exception in place of the result. -/
def invoke (tool : Tool δ) (args : Args) : EnvProg δ υ PyStr :=
  attempt (onMemory (tool args)) fun e => pure ("Error: " ++ e.msg)

/-- The text of an invocation. -/
def invokeText (tool : Tool δ) (args : Args) (memory : Memory δ) : PyStr :=
  match (tool args memory).1 with
  | .ok observation => observation
  | .error e => "Error: " ++ e.msg

/-- An invocation does not raise, and keeps what the tool has written. -/
theorem invoke_run (tool : Tool δ) (args : Args) (env : Env δ υ) :
    invoke tool args env =
      (.ok (invokeText tool args env.toMemory),
        { env with toMemory := (tool args env.toMemory).2 }) := by
  rw [invoke, attempt, onMemory, zoom, invokeText]
  rcases (tool args env.toMemory).1 with e | observation
  · rfl
  · rfl

/-- A tool that keeps nothing of its arguments, and reads them once. -/
def byValue (tool : Kwargs → Prog PyErr δ PyStr) : Tool δ := fun args memory =>
  let out := tool (memory.read args) memory.data
  (out.1, { memory with data := out.2 })

/-- No tool writes to arguments that others hold. -/
def Domain.Harmless (dom : Domain δ υ) : Prop :=
  ∀ name tool, dom.tools_map.lookup name = some tool → ∀ args memory,
    (tool args memory).2.shared = memory.shared

/-- Tools that keep nothing of their arguments are harmless. -/
theorem harmless_of_byValue {dom : Domain δ υ}
    (h : ∀ entry ∈ dom.tools_map, ∃ tool, entry.2 = byValue tool) : dom.Harmless := by
  intro name tool htool args memory
  obtain ⟨before, rest, heq, -⟩ := List.lookup_eq_some_iff.mp htool
  have hmem : (name, tool) ∈ dom.tools_map := heq ▸ List.mem_append_right _ List.mem_cons_self
  obtain ⟨tool', rfl : tool = byValue tool'⟩ := h _ hmem
  rfl

/-! ### The two methods -/

/-- The end of `step`: an episode that is done is rewarded. -/
def finishStep (dom : Domain δ υ) (calculate : EnvProg δ υ RewardResult)
    (observation source : PyStr)
    (done : Bool) : EnvProg δ υ EnvResponse :=
  if done then do
    let reward_res ← calculate
    let env ← get
    pure ⟨observation, reward_res.reward, true,
      ⟨source, some reward_res, some (dom.user.total_cost env.user)⟩⟩
  else pure ⟨observation, 0, false, ⟨source, none, none⟩⟩

/-- A done episode whose reward is computed. -/
theorem finishStep_done (dom : Domain δ υ) {calculate : EnvProg δ υ RewardResult} {env : Env δ υ}
    {reward_result : RewardResult} (h : (calculate env).1 = .ok reward_result)
    (observation source : PyStr) :
    ∃ step_res, (finishStep dom calculate observation source true env).1 = .ok step_res ∧
      step_res.reward = reward_result.reward ∧ step_res.done = true := by
  rcases hrun : calculate env with ⟨e | r, env'⟩
  · rw [hrun] at h
    cases h
  · rw [hrun] at h
    obtain rfl : r = reward_result := Except.ok.inj h
    exact ⟨_, congrArg Prod.fst (bind_run_ok.mpr ⟨r, env', hrun, rfl⟩), rfl, rfl⟩

/-- `step`, given `calculate_reward`. -/
def stepWith (dom : Domain δ υ) (calculate : EnvProg δ υ RewardResult) (action : Action) :
    EnvProg δ υ EnvResponse := do
  addAction action
  if action.name = RESPOND_ACTION_NAME then do
    let env ← get
    let content ← lift (kwarg (env.read action.kwargs) "content")
    let observation ← onUser (dom.user.step content)
    finishStep dom calculate observation "user" (isSubstr "###STOP###" observation)
  else
    match dom.tools_map.lookup action.name with
    | some tool => do
      let observation ← invoke tool action.kwargs
      finishStep dom calculate observation action.name (dom.terminate_tools.contains action.name)
    | none => finishStep dom calculate ("Unknown action " ++ action.name) action.name false

/-- `output.lower() in action.kwargs["content"].lower().replace(",", "")` -/
def mentions (py : Interp) (memory : Memory δ) (output : PyStr) (action : Action) :
    Except PyErr Bool := do
  match ← kwarg (memory.read action.kwargs) "content" with
  | .str content =>
    .ok (isSubstr (py.lowercase output) ((py.lowercase content).filter (· ≠ ch ',')))
  | v => .error ⟨.attributeError, "'" ++ v.typeName ++ "' object has no attribute 'lower'"⟩

/-- Whether one of the `respond` actions mentions the output. -/
def found (py : Interp) (memory : Memory δ) (output : PyStr) : List Action → Except PyErr Bool
  | [] => .ok false
  | action :: actions =>
    if action.name = RESPOND_ACTION_NAME then do
      if ← mentions py memory output action then .ok true else found py memory output actions
    else found py memory output actions

/-- `calculate_reward`, given `step`. -/
def calculateWith (py : Interp) (dom : Domain δ υ) (step : Action → EnvProg δ υ EnvResponse) :
    EnvProg δ υ RewardResult := do
  let data_hash ← getDataHash dom
  setData dom.data_load
  forEach (fun action =>
    if dom.terminate_tools.contains action.name then pure ()
    else do
      let _ ← step action
      pure ()) dom.task.actions
  let gt_data_hash ← getDataHash dom
  let r_actions := decide (data_hash = gt_data_hash)
  let actions := dom.task.actions.filter (·.name ≠ RESPOND_ACTION_NAME)
  if dom.task.outputs.isEmpty then
    pure ⟨if r_actions then 1 else 0, .action r_actions gt_data_hash, actions⟩
  else do
    let env ← get
    let founds ← lift (dom.task.outputs.mapM fun output => found py env.toMemory output env.actions)
    let r_outputs := founds.all id
    pure ⟨if r_actions && r_outputs then 1 else 0, .output (if r_outputs then 1 else 0)
      ((dom.task.outputs.zip founds).foldl (fun outputs p => dictSet outputs p.1 p.2) []), actions⟩

/-- `calculate_reward` with `depth` levels of recursion left. -/
def calculateReward (py : Interp) (dom : Domain δ υ) : ℕ → EnvProg δ υ RewardResult
  | 0 => raise ⟨.recursionError, "maximum recursion depth exceeded"⟩
  | depth + 1 => calculateWith py dom (stepWith dom (calculateReward py dom depth))

def step (py : Interp) (dom : Domain δ υ) (depth : ℕ) (action : Action) : EnvProg δ υ EnvResponse :=
  stepWith dom (calculateReward py dom depth) action

/-- `reset`, for the task of the domain. -/
def reset (dom : Domain δ υ) : EnvProg δ υ PyStr := do
  setData dom.data_load
  modify fun env => { env with actions := [] }
  onUser (dom.user.reset dom.task.instruction)

/-! ### Rewards -/

section Rewards

variable {py : Interp} {dom : Domain δ υ}

/-- Whatever is compared, the result is `0` or `1`. -/
theorem calculateWith_mem (step : Action → EnvProg δ υ EnvResponse) :
    Returns (calculateWith py dom step) fun r => r.reward = 0 ∨ r.reward = 1 := by
  have hite : ∀ b : Bool, (if b then (1 : ℚ) else 0) = 0 ∨ (if b then (1 : ℚ) else 0) = 1 := by
    intro b
    cases b
    · exact .inl rfl
    · exact .inr rfl
  refine .bind_last fun data_hash => .bind_last fun _ => .bind_last fun _ =>
    .bind_last fun gt_data_hash => ?_
  split
  · exact .pure (hite _)
  · exact .bind_last fun env => .bind_last fun founds => .pure (hite _)

/-- **A reward is `0` or `1`.** -/
theorem calculateReward_mem : ∀ depth : ℕ,
    Returns (calculateReward py dom depth) fun r => r.reward = 0 ∨ r.reward = 1
  | 0 => .raise
  | _ + 1 => calculateWith_mem _

/-- A response whose reward is `0` or `1`, and `0` unless the episode is done. -/
def Rewarded (r : EnvResponse) : Prop :=
  (r.reward = 0 ∨ r.reward = 1) ∧ (r.done = false → r.reward = 0)

theorem finishStep_rewarded {calculate : EnvProg δ υ RewardResult}
    (h : Returns calculate fun r => r.reward = 0 ∨ r.reward = 1) (observation source : PyStr)
    (done : Bool) :
    Returns (finishStep dom calculate observation source done)
      fun r => Rewarded r ∧ r.done = done := by
  cases done with
  | true =>
    exact h.bind fun r hr => .bind_last fun env => .pure ⟨⟨hr, fun h => by cases h⟩, rfl⟩
  | false => exact .pure ⟨⟨.inl rfl, fun _ => rfl⟩, rfl⟩

/-- The actions that can end an episode. -/
def Ending (dom : Domain δ υ) (name : PyStr) : Prop :=
  name = RESPOND_ACTION_NAME ∨ name ∈ dom.terminate_tools

instance (dom : Domain δ υ) (name : PyStr) : Decidable (Ending dom name) :=
  inferInstanceAs (Decidable (_ ∨ _))

/-- **The response of a step**: only an ending action is rewarded. -/
theorem step_response (depth : ℕ) (action : Action) :
    Returns (step py dom depth action) fun r =>
      Rewarded r ∧ (r.done = true → Ending dom action.name) := by
  refine .bind_last fun _ => ?_
  split
  · next hrespond =>
    refine .bind_last fun env => .bind_last fun content => .bind_last fun observation => ?_
    exact (finishStep_rewarded (calculateReward_mem depth) _ _ _).mono fun r hr =>
      ⟨hr.1, fun _ => .inl hrespond⟩
  · split
    · refine .bind_last fun observation => ?_
      exact (finishStep_rewarded (calculateReward_mem depth) _ _ _).mono fun r hr =>
        ⟨hr.1, fun hdone => .inr (by simpa [hr.2] using hdone)⟩
    · exact (finishStep_rewarded (calculateReward_mem depth) _ _ _).mono fun r hr =>
        ⟨hr.1, fun hdone => by simp [hr.2] at hdone⟩

/-! ### The list of actions only grows

A computation of a reward replays actions through `step`, which appends them to the list of the
episode. -/

section Actions

variable {past : List Action}

theorem addAction_keeps (action : Action) :
    Keeps (addAction action : EnvProg δ υ Unit) fun env => past <+: env.actions :=
  .modify fun _ h => h.trans (List.prefix_append _ _)

theorem onMemory_keeps {α : Type} (m : Prog PyErr (Memory δ) α) :
    Keeps (onMemory m : EnvProg δ υ α) fun env => past <+: env.actions :=
  .zoom m fun _ _ h => h

theorem onUser_keeps {α : Type} (m : Prog PyErr υ α) :
    Keeps (onUser m : EnvProg δ υ α) fun env => past <+: env.actions :=
  .zoom m fun _ _ h => h

theorem invoke_keeps (tool : Tool δ) (args : Args) :
    Keeps (invoke tool args : EnvProg δ υ PyStr) fun env => past <+: env.actions :=
  .attempt (onMemory_keeps _) fun _ => .pure _

theorem getDataHash_keeps :
    Keeps (getDataHash dom : EnvProg δ υ PyStr) fun env => past <+: env.actions :=
  .bind .get fun _ => .lift _

theorem finishStep_keeps {calculate : EnvProg δ υ RewardResult}
    (h : Keeps calculate fun env => past <+: env.actions) (observation source : PyStr)
    (done : Bool) :
    Keeps (finishStep dom calculate observation source done) fun env => past <+: env.actions := by
  cases done with
  | true => exact h.bind fun _ => .bind .get fun _ => .pure _
  | false => exact .pure _

theorem stepWith_keeps {calculate : EnvProg δ υ RewardResult}
    (h : Keeps calculate fun env => past <+: env.actions) (action : Action) :
    Keeps (stepWith dom calculate action) fun env => past <+: env.actions := by
  refine (addAction_keeps action).bind fun _ => ?_
  split
  · exact Keeps.get.bind fun env => (Keeps.lift _).bind fun content =>
      (onUser_keeps _).bind fun _ => finishStep_keeps h _ _ _
  · split
    · exact (invoke_keeps _ _).bind fun _ => finishStep_keeps h _ _ _
    · exact finishStep_keeps h _ _ _

theorem calculateWith_keeps {step : Action → EnvProg δ υ EnvResponse}
    (h : ∀ action, Keeps (step action) fun env => past <+: env.actions) :
    Keeps (calculateWith py dom step) fun env => past <+: env.actions := by
  refine getDataHash_keeps.bind fun data_hash => .bind (.modify fun _ hs => hs) fun _ => ?_
  refine .bind (.forEach _ fun action _ => ?_) fun _ => getDataHash_keeps.bind
    fun gt_data_hash => ?_
  · split
    · exact .pure ()
    · exact (h action).bind fun _ => .pure ()
  · split
    · exact .pure _
    · exact .bind .get fun _ => .bind (.lift _) fun _ => .pure _

theorem calculateReward_keeps : ∀ depth : ℕ,
    Keeps (calculateReward py dom depth) fun env => past <+: env.actions
  | 0 => .raise _
  | depth + 1 => calculateWith_keeps (stepWith_keeps (calculateReward_keeps depth))

end Actions

end Rewards

end TauBench

end ToolAgent
