import ToolAgent.Integration.Database
import ToolAgent.Library.Interleaving

/-!
# Concurrent rollouts

Many rollouts share one `TauBenchInteraction` and one event loop. Each runs in a task of its own,
with its own copy of the context variables. Environments and states are objects with an address, the
table `_instance_dict` holds addresses, and a tool finds its environment through the context.

A rollout can be interrupted wherever the source awaits: before and after `env.reset`, the replay
and `env.step`, which run in a thread, and between two calls. A step of a rollout is what it does
from one such point to the next.

Environments of one task hold the same `Task`, and rollouts of one prompt are started with the same
recorded actions. Their dictionaries of arguments belong to no rollout, and a tool can write to
them: then the other rollouts compute their rewards and take their replays with other arguments. A
rollout is isolated as long as no step does that.

Addresses and trace ids are handed out in the order of the requests, so they depend on the other
rollouts. What a rollout is told of a call is the outcome without these.

## Layers

* `rolloutStep` — the source: addresses, contexts, the table
* `viewStep` — its purpose: a rollout that works on an environment and a state of its own

## Main definitions

* `World`, `Local` — what is shared, and what a rollout has to itself
* `view` — a rollout with its addresses resolved and the ids left out
* `Separated` — the invariant: no two rollouts hold the same object

## Main results

* `rolloutStep_sound` — a step of a rollout touches only its own objects and its own entry, and the
  rollout sees a `viewStep`
* `rollouts_unwind` — every rollout is a `viewStep` machine over the shared arguments
* `rollout_isolated` — as long as no step writes to shared arguments, a rollout stands after any
  schedule where it would stand if it ran alone
-/

namespace ToolAgent

namespace Integration

open Python Prog TauBench ToolArguments

variable {δ υ : Type}

/-! ### Objects -/

/-- An environment, with what its task fixes. -/
structure EnvObject (δ υ : Type) where
  dom : Domain δ υ
  env : Env δ υ

/-- The context variables of a task: addresses of an environment and of a state. -/
structure Context where
  CURRENT_TAU_ENV : Option ℕ := none
  CURRENT_TAU_STATE : Option ℕ := none

/-- An entry of `_instance_dict`. -/
structure Entry where
  env : ℕ
  state : ℕ
  initial_user_response : PyStr

/-- What the rollouts share. The addresses from `next` on are free, and what they hold is arbitrary.
The dictionaries of arguments that tasks and recorded actions hold are in `shared`. -/
structure World (δ υ : Type) where
  envs : ℕ → EnvObject δ υ
  states : ℕ → State
  instance_dict : PyStr → Option Entry
  next : ℕ
  shared : Shared

/-- An environment as it is now, whatever was written to shared arguments since it was last used. -/
def EnvObject.now (object : EnvObject δ υ) (shared : Shared) : Env δ υ :=
  let memory : Memory δ := ⟨object.env.data, object.env.links, shared⟩
  { object.env with data := object.dom.refresh memory, shared := shared }

/-- The environment at an address, as it is now. -/
def World.envNow (w : World δ υ) (a : ℕ) : Env δ υ := (w.envs a).now w.shared

/-- What a step has left of an environment, and of the shared arguments. -/
def World.setEnv (w : World δ υ) (a : ℕ) (env : Env δ υ) : World δ υ :=
  { w with
    envs := Function.update w.envs a { w.envs a with env := env }
    shared := env.shared }

def World.setState (w : World δ υ) (s : ℕ) (state : State) : World δ υ :=
  { w with states := Function.update w.states s state }

def World.setEntry (w : World δ υ) (instanceId : PyStr) (entry : Option Entry) : World δ υ :=
  { w with instance_dict := Function.update w.instance_dict instanceId entry }

/-- A new environment, at the address `w.next`. -/
def World.newEnv (w : World δ υ) (object : EnvObject δ υ) : World δ υ :=
  { w with envs := Function.update w.envs w.next object, next := w.next + 1 }

def World.newState (w : World δ υ) (state : State) : World δ υ :=
  { w with states := Function.update w.states w.next state, next := w.next + 1 }

section World

variable (w : World δ υ)

@[simp] theorem setEnv_envs_self (a : ℕ) (env : Env δ υ) :
    (w.setEnv a env).envs a = { w.envs a with env := env } := Function.update_self _ _ _

theorem setEnv_envs_of_ne {a b : ℕ} (h : b ≠ a) (env : Env δ υ) :
    (w.setEnv a env).envs b = w.envs b := Function.update_of_ne h _ _

@[simp] theorem newEnv_envs_self (object : EnvObject δ υ) :
    (w.newEnv object).envs w.next = object :=
  Function.update_self _ _ _

theorem newEnv_envs_of_ne {a : ℕ} (h : a ≠ w.next) (object : EnvObject δ υ) :
    (w.newEnv object).envs a = w.envs a := Function.update_of_ne h _ _

@[simp] theorem setState_envs (s : ℕ) (state : State) : (w.setState s state).envs = w.envs := rfl

@[simp] theorem setState_states_self (s : ℕ) (state : State) :
    (w.setState s state).states s = state := Function.update_self _ _ _

theorem setState_states_of_ne {s t : ℕ} (h : t ≠ s) (state : State) :
    (w.setState s state).states t = w.states t := Function.update_of_ne h _ _

@[simp] theorem newState_states_self (state : State) : (w.newState state).states w.next = state :=
  Function.update_self _ _ _

end World

/-! ### Calls -/

abbrev ReplayActions := List ReplayAction

inductive Call where
  | start_interaction (replayActions : ReplayActions)
  | execute (name : PyStr) (parameters : Parameters)
  | generate_response (messages : List (List (PyStr × PyVal)))
  | finalize_interaction

/-- What a call returns or raises, without the ids. -/
inductive Outcome where
  | started
  | tool (text : PyStr) (inc_reward : ℚ) (done : Bool) (error : Option PyStr)
  | response (should_terminate : Bool) (observation : PyStr) (score : ℚ)
  | finalized
  | raised (e : PyErr)

/-- A rollout: its task, and what it calls next after the outcomes so far. -/
structure Rollout (δ υ : Type) where
  instance_id : PyStr
  task_id : ℤ
  dom : Domain δ υ
  user : υ
  next : List Outcome → Option Call

/-- What the rollouts have in common. `uuid4` is a source of random ids. -/
structure Setup where
  py : Interp
  depth : ℕ
  max_turns : ℤ
  bNdsrEnabled : Bool
  uuid4 : ℕ → PyStr

/-- Where a rollout was interrupted. -/
inductive Phase where
  | idle
  /-- `await asyncio.to_thread(env.reset, ...)`, before and after the thread -/
  | resetting (env : ℕ) (replayActions : ReplayActions)
  | reset (env : ℕ) (replayActions : ReplayActions) (result : Except PyErr PyStr)
  /-- `await asyncio.to_thread(_replay_b_ndsr_actions, ...)` -/
  | replaying (env state : ℕ) (replayActions : ReplayActions) (response : PyStr)
  | replayed (env state : ℕ) (response : PyStr) (result : Except PyErr Unit)
  /-- `await asyncio.to_thread(env.step, ...)` -/
  | responding (env state : ℕ) (messages : List (List (PyStr × PyVal)))
  | responded (env state : ℕ) (result : Except PyErr EnvResponse)

/-- What a rollout has to itself. -/
structure Local where
  ctx : Context := {}
  phase : Phase := .idle
  log : List Outcome := []

def Local.answer (l : Local) (outcome : Outcome) : Local :=
  { l with phase := .idle, log := l.log ++ [outcome] }

/-! ### Steps -/

/-- The action of `generate_response`. -/
def respondAction (messages : List (List (PyStr × PyVal))) : Action :=
  ⟨RESPOND_ACTION_NAME, .own [("content", assistantContent messages)]⟩

/-- The state after the reward of a response is credited. -/
def creditResponse (max_turns : ℤ) (step_res : EnvResponse) (state : State) : State :=
  let state := { state with
    total_reward := state.total_reward + step_res.reward
    num_user_turns := state.num_user_turns + 1 }
  let total_turns : ℕ := state.num_user_turns + state.num_tool_calls
  if max_turns ≤ (total_turns : ℤ) then markMaxTurnHit state else state

/-- What `generate_response` returns in that state. -/
def answerResponse (max_turns : ℤ) (step_res : EnvResponse) (state : State) : Response × State :=
  let total_turns : ℕ := state.num_user_turns + state.num_tool_calls
  if step_res.done || state.done || decide (max_turns ≤ (total_turns : ℤ)) then
    let state := { state with done := true }
    (finalResponse state none, state)
  else (⟨false, step_res.observation, 0, .turn total_turns state.ident⟩, state)

/-- `generate_response` after `env.step`. -/
def finishResponse (max_turns : ℤ) (result : Except PyErr EnvResponse) (state : State) :
    Response × State :=
  match result with
  | .error exc =>
    let state := { state with done := true }
    (finalResponse state (some exc.describe), state)
  | .ok step_res => answerResponse max_turns step_res (creditResponse max_turns step_res state)

/-- A response without interruption is `env.step` and what follows it. -/
theorem generateResponse_eq (py : Interp) (dom : Domain δ υ) (depth : ℕ) (max_turns : ℤ)
    (messages : List (List (PyStr × PyVal))) (inst : Instance δ υ) :
    generateResponse py dom depth max_turns messages inst =
      let r := step py dom depth (respondAction messages) inst.env
      let finished := finishResponse max_turns r.1 inst.state
      (finished.1, ⟨r.2, finished.2⟩) := by
  rw [generateResponse, respondAction]
  rcases step py dom depth ⟨RESPOND_ACTION_NAME, .own [("content", assistantContent messages)]⟩
    inst.env with ⟨exc | step_res, env⟩
  · rfl
  · dsimp only [finishResponse, answerResponse, creditResponse]
    split
    · simp only [markMaxTurnHit, Bool.or_true, Bool.true_or, if_true]
    · split <;> rfl

def responseOutcome (response : Response) : Outcome :=
  .response response.should_terminate response.observation response.score

def toolOutcome (out : PyStr × ToolInfo) : Outcome :=
  .tool out.1 out.2.inc_reward out.2.done out.2.error

section Steps

variable (setup : Setup) (r : Rollout δ υ)

/-- The end of `start_interaction`. -/
def publish (env state : ℕ) (response : PyStr) (l : Local) (w : World δ υ) : Local × World δ υ :=
  ({ l with ctx := ⟨some env, some state⟩, phase := .idle, log := l.log ++ [.started] },
    w.setEntry r.instance_id (some ⟨env, state, response⟩))

def missingContext : PyErr := ⟨.runtimeError, "TauBench env/state missing from context."⟩

def contextViolation (state : State) (env : ℕ) : PyErr :=
  ⟨.runtimeError, PyStr.ofString "Context isolation violation: state.env_id=" ++
    natRepr state.ident.env_id ++ PyStr.ofString " current_env_id=" ++ natRepr env⟩

def unknownInstance (instanceId : PyStr) : PyErr :=
  ⟨.runtimeError, PyStr.ofString "Unknown instance_id=" ++ instanceId ++
    PyStr.ofString "; start_interaction was not called or was finalized."⟩

def stateMismatch (instanceId : PyStr) (state : State) (env : ℕ) : PyErr :=
  ⟨.runtimeError, PyStr.ofString "Interaction state mismatch: instance=" ++ instanceId ++
    PyStr.ofString ", state.instance=" ++ state.ident.instance_id ++ PyStr.ofString ", env_id=" ++
    natRepr env ++ PyStr.ofString ", state.env_id=" ++ natRepr state.ident.env_id⟩

/-- The start of a call, up to the first `await`. -/
def beginCall (l : Local) (w : World δ υ) : Call → Local × World δ υ
  | .start_interaction replayActions =>
    ({ l with phase := .resetting w.next replayActions },
      w.newEnv ⟨r.dom, ⟨⟨r.dom.data_load, [], w.shared⟩, [], r.user⟩⟩)
  | .execute name parameters =>
    match l.ctx.CURRENT_TAU_ENV, l.ctx.CURRENT_TAU_STATE with
    | some a, some s =>
      if (w.states s).ident.env_id ≠ a then
        (l.answer (.raised (contextViolation (w.states s) a)), w)
      else
        let out := execute setup.py (w.envs a).dom setup.depth name parameters
          ⟨w.envNow a, w.states s⟩
        (l.answer (toolOutcome out.1), (w.setEnv a out.2.env).setState s out.2.state)
    | _, _ => (l.answer (.raised missingContext), w)
  | .generate_response messages =>
    match w.instance_dict r.instance_id with
    | none => (l.answer (.raised (unknownInstance r.instance_id)), w)
    | some entry =>
      let state := w.states entry.state
      if state.ident.instance_id ≠ r.instance_id ∨ state.ident.env_id ≠ entry.env then
        (l.answer (.raised (stateMismatch r.instance_id state entry.env)), w)
      else
        ({ l with
            ctx := ⟨some entry.env, some entry.state⟩
            phase := .responding entry.env entry.state messages }, w)
  | .finalize_interaction => (l.answer .finalized, w.setEntry r.instance_id none)

/-- `start_interaction` after `env.reset`. -/
def afterReset (env : ℕ) (replayActions : ReplayActions) (l : Local) (w : World δ υ) :
    Except PyErr PyStr → Local × World δ υ
  | .error e => (l.answer (.raised e), w)
  | .ok response =>
    let w' := w.newState
      (makeInitialState ⟨r.instance_id, setup.uuid4 w.next, r.task_id, env⟩)
    if replayActions.isEmpty then publish r env w.next response l w'
    else ({ l with phase := .replaying env w.next replayActions response }, w')

/-- `_replay_b_ndsr_actions`, in its thread. -/
def replayInThread (dom : Domain δ υ) (replayActions : ReplayActions) :
    Prog PyErr (Instance δ υ) Unit :=
  if !setup.bNdsrEnabled then
    raise ⟨.runtimeError, "Received B-NDSR replay actions while B_NDSR_ENABLED is false."⟩
  else replayLoop setup.py dom setup.depth replayActions

/-- A rollout goes on to the next point where it can be interrupted. -/
def rolloutStep (l : Local) (w : World δ υ) : Local × World δ υ :=
  match l.phase with
  | .idle =>
    match r.next l.log with
    | none => (l, w)
    | some call => beginCall setup r l w call
  | .resetting a replayActions =>
    let out := reset (w.envs a).dom (w.envNow a)
    ({ l with phase := .reset a replayActions out.1 }, w.setEnv a out.2)
  | .reset a replayActions result => afterReset setup r a replayActions l w result
  | .replaying a s replayActions response =>
    let out := replayInThread setup (w.envs a).dom replayActions ⟨w.envNow a, w.states s⟩
    ({ l with phase := .replayed a s response out.1 },
      (w.setEnv a out.2.env).setState s out.2.state)
  | .replayed _ _ _ (.error e) => (l.answer (.raised e), w)
  | .replayed a s response (.ok ()) => publish r a s response l w
  | .responding a s messages =>
    let out := step setup.py (w.envs a).dom setup.depth (respondAction messages) (w.envNow a)
    ({ l with phase := .responded a s out.1 }, w.setEnv a out.2)
  | .responded _ s result =>
    let out := finishResponse setup.max_turns result (w.states s)
    (l.answer (responseOutcome out.1), w.setState s out.2)

end Steps

/-! ### The view of a rollout -/

/-- A state without the ids that depend on the other rollouts. -/
def State.anonymous (state : State) : State :=
  { state with ident := { state.ident with trace_id := [], env_id := 0 } }

/-- An environment and a state that belong to one rollout. -/
structure Session (δ υ : Type) where
  object : EnvObject δ υ
  state : State

/-- A phase, with the objects in place of their addresses. -/
inductive PhaseView (δ υ : Type) where
  | idle
  | resetting (object : EnvObject δ υ) (replayActions : ReplayActions)
  | reset (object : EnvObject δ υ) (replayActions : ReplayActions) (result : Except PyErr PyStr)
  | replaying (session : Session δ υ) (replayActions : ReplayActions)
  | replayed (session : Except PyErr (Session δ υ))
  | responding (messages : List (List (PyStr × PyVal)))
  | responded (result : Except PyErr EnvResponse)

structure View (δ υ : Type) where
  /-- What the context variables refer to. -/
  session : Option (Session δ υ)
  registered : Bool
  phase : PhaseView δ υ
  log : List Outcome

def World.sessionAt (w : World δ υ) (a s : ℕ) : Session δ υ := ⟨w.envs a, (w.states s).anonymous⟩

def Context.session (ctx : Context) (w : World δ υ) : Option (Session δ υ) :=
  match ctx.CURRENT_TAU_ENV, ctx.CURRENT_TAU_STATE with
  | some a, some s => some (w.sessionAt a s)
  | _, _ => none

def Phase.view (w : World δ υ) : Phase → PhaseView δ υ
  | .idle => .idle
  | .resetting a replayActions => .resetting (w.envs a) replayActions
  | .reset a replayActions result => .reset (w.envs a) replayActions result
  | .replaying a s replayActions _ => .replaying (w.sessionAt a s) replayActions
  | .replayed a s _ result => .replayed (result.map fun _ => w.sessionAt a s)
  | .responding _ _ messages => .responding messages
  | .responded _ _ result => .responded result

def viewOf (r : Rollout δ υ) (l : Local) (w : World δ υ) : View δ υ where
  session := l.ctx.session w
  registered := (w.instance_dict r.instance_id).isSome
  phase := l.phase.view w
  log := l.log

/-! ### A rollout on its own -/

section View

variable (setup : Setup) (r : Rollout δ υ)

def View.answer (v : View δ υ) (outcome : Outcome) : View δ υ :=
  { v with phase := .idle, log := v.log ++ [outcome] }

def View.publish (v : View δ υ) (session : Session δ υ) : View δ υ :=
  ⟨some session, true, .idle, v.log ++ [.started]⟩

/-- `execute` on the session. -/
def Session.execute (session : Session δ υ) (shared : Shared) (name : PyStr)
    (parameters : Parameters) : Outcome × Session δ υ :=
  let out := Integration.execute setup.py session.object.dom setup.depth name parameters
    ⟨session.object.now shared, session.state⟩
  (toolOutcome out.1, ⟨{ session.object with env := out.2.env }, out.2.state⟩)

def View.begin (v : View δ υ) (shared : Shared) : Call → View δ υ × Shared
  | .start_interaction replayActions =>
    ({ v with phase :=
        .resetting ⟨r.dom, ⟨⟨r.dom.data_load, [], shared⟩, [], r.user⟩⟩ replayActions }, shared)
  | .execute name parameters =>
    match v.session with
    | none => (v.answer (.raised missingContext), shared)
    | some session =>
      let out := session.execute setup shared name parameters
      ({ v.answer out.1 with session := some out.2 }, out.2.object.env.shared)
  | .generate_response messages =>
    if v.registered then ({ v with phase := .responding messages }, shared)
    else (v.answer (.raised (unknownInstance r.instance_id)), shared)
  | .finalize_interaction => ({ v.answer .finalized with registered := false }, shared)

def View.afterReset (v : View δ υ) (object : EnvObject δ υ) (replayActions : ReplayActions) :
    Except PyErr PyStr → View δ υ
  | .error e => v.answer (.raised e)
  | .ok _ =>
    let session : Session δ υ := ⟨object, makeInitialState ⟨r.instance_id, [], r.task_id, 0⟩⟩
    if replayActions.isEmpty then v.publish session
    else { v with phase := .replaying session replayActions }

/-- One step of a rollout that has its environment and its state to itself, and what it leaves of
the shared arguments. -/
def viewStep (shared : Shared) (v : View δ υ) : View δ υ × Shared :=
  match v.phase with
  | .idle =>
    match r.next v.log with
    | none => (v, shared)
    | some call => v.begin setup r shared call
  | .resetting object replayActions =>
    let out := reset object.dom (object.now shared)
    ({ v with phase := .reset { object with env := out.2 } replayActions out.1 }, out.2.shared)
  | .reset object replayActions result => (v.afterReset r object replayActions result, shared)
  | .replaying session replayActions =>
    let out := replayInThread setup session.object.dom replayActions
      ⟨session.object.now shared, session.state⟩
    ({ v with phase := .replayed (out.1.map
        fun _ => ⟨{ session.object with env := out.2.env }, out.2.state⟩) }, out.2.env.shared)
  | .replayed (.error e) => (v.answer (.raised e), shared)
  | .replayed (.ok session) => (v.publish session, shared)
  | .responding messages =>
    match v.session with
    | none => (v, shared)
    | some session =>
      let out := step setup.py session.object.dom setup.depth (respondAction messages)
        (session.object.now shared)
      ({ v with
          phase := .responded out.1
          session := some { session with object := { session.object with env := out.2 } } },
        out.2.shared)
  | .responded result =>
    match v.session with
    | none => (v, shared)
    | some session =>
      let out := finishResponse setup.max_turns result session.state
      ({ v.answer (responseOutcome out.1) with session := some { session with state := out.2 } },
        shared)

end View

/-! ### Ids do not matter -/

section Anonymous

variable {py : Interp} {dom : Domain δ υ} {depth : ℕ}

theorem execute_anonymous (name : PyStr) (parameters : Parameters) (env : Env δ υ) (state : State) :
    toolOutcome (execute py dom depth name parameters ⟨env, state.anonymous⟩).1 =
        toolOutcome (execute py dom depth name parameters ⟨env, state⟩).1 ∧
      (execute py dom depth name parameters ⟨env, state.anonymous⟩).2.env =
        (execute py dom depth name parameters ⟨env, state⟩).2.env ∧
      (execute py dom depth name parameters ⟨env, state.anonymous⟩).2.state =
        (execute py dom depth name parameters ⟨env, state⟩).2.state.anonymous := by
  rw [execute, execute]
  rcases parameters.parse py with e | args
  · exact ⟨rfl, rfl, rfl⟩
  · dsimp only
    rcases executeTauToolAction py dom depth ⟨name, args⟩ env with
      ⟨exc | ⟨obs, inc_reward, is_done, data⟩, env'⟩
    · exact ⟨rfl, rfl, rfl⟩
    · exact ⟨rfl, rfl, rfl⟩

theorem creditResponse_anonymous (max_turns : ℤ) (step_res : EnvResponse) (state : State) :
    creditResponse max_turns step_res state.anonymous =
      (creditResponse max_turns step_res state).anonymous := by
  let turns (state : State) : ℕ := state.num_user_turns + 1 + state.num_tool_calls
  by_cases h : max_turns ≤ (turns state : ℤ)
  · have h' : max_turns ≤ (turns state.anonymous : ℤ) := h
    dsimp only [creditResponse]
    rw [if_pos h, if_pos h']
    rfl
  · have h' : ¬max_turns ≤ (turns state.anonymous : ℤ) := h
    dsimp only [creditResponse]
    rw [if_neg h, if_neg h']
    rfl

theorem answerResponse_anonymous (max_turns : ℤ) (step_res : EnvResponse) (state : State) :
    responseOutcome (answerResponse max_turns step_res state.anonymous).1 =
        responseOutcome (answerResponse max_turns step_res state).1 ∧
      (answerResponse max_turns step_res state.anonymous).2 =
        (answerResponse max_turns step_res state).2.anonymous := by
  let ended (state : State) : Bool := step_res.done || state.done ||
    decide (max_turns ≤ ((state.num_user_turns + state.num_tool_calls : ℕ) : ℤ))
  by_cases h : ended state = true
  · have h' : ended state.anonymous = true := h
    rw [answerResponse, answerResponse, if_pos h, if_pos h']
    exact ⟨rfl, rfl⟩
  · have h' : ¬ended state.anonymous = true := h
    rw [answerResponse, answerResponse, if_neg h, if_neg h']
    exact ⟨rfl, rfl⟩

theorem finishResponse_anonymous (max_turns : ℤ) (result : Except PyErr EnvResponse)
    (state : State) :
    responseOutcome (finishResponse max_turns result state.anonymous).1 =
        responseOutcome (finishResponse max_turns result state).1 ∧
      (finishResponse max_turns result state.anonymous).2 =
        (finishResponse max_turns result state).2.anonymous := by
  rcases result with exc | step_res
  · exact ⟨rfl, rfl⟩
  · simp only [finishResponse, creditResponse_anonymous]
    exact answerResponse_anonymous max_turns step_res _

def Instance.anonymous (inst : Instance δ υ) : Instance δ υ := ⟨inst.env, inst.state.anonymous⟩

/-- A program that does the same where the ids are left out. -/
def IgnoresIds (m : Prog PyErr (Instance δ υ) Unit) : Prop :=
  ∀ inst, m inst.anonymous = ((m inst).1, (m inst).2.anonymous)

theorem replayStep_anonymous (action : Action) :
    IgnoresIds (replayStep py dom depth action) := by
  intro inst
  rw [replayStep, replayStep]
  rw [show inst.anonymous.env = inst.env from rfl]
  rcases step py dom depth action inst.env with ⟨exc | step_res, env⟩
  · rfl
  · rfl

theorem replayRound_anonymous (replayAction : ReplayAction) :
    IgnoresIds (replayRound py dom depth replayAction) := by
  intro inst
  rw [replayRound, replayRound]
  split
  · split
    · split
      · rfl
      · exact replayStep_anonymous _
          { inst with state :=
              { inst.state with num_tool_calls := inst.state.num_tool_calls + 1 } }
    · rfl
  · split
    · exact replayStep_anonymous _
        { inst with state := { inst.state with num_user_turns := inst.state.num_user_turns + 1 } }
    · rfl

theorem replayLoop_anonymous (replayActions : ReplayActions) :
    IgnoresIds (replayLoop py dom depth replayActions) := by
  induction replayActions with
  | nil => exact fun inst => rfl
  | cons replayAction replayActions ih =>
    intro inst
    rw [replayLoop, get_bind_run, get_bind_run]
    by_cases hdone : inst.state.done = true
    · rw [if_pos hdone, if_pos (show inst.anonymous.state.done = true from hdone)]
      rfl
    · rw [if_neg hdone, if_neg (show ¬inst.anonymous.state.done = true from hdone)]
      rw [bind_run, bind_run, replayRound_anonymous replayAction inst]
      rcases replayRound py dom depth replayAction inst with ⟨e | ⟨⟩, inst'⟩
      · rfl
      · exact ih inst'

/-! A call does not change the ids. -/

theorem execute_ident (name : PyStr) (parameters : Parameters) (inst : Instance δ υ) :
    (execute py dom depth name parameters inst).2.state.ident = inst.state.ident := by
  rw [execute]
  rcases parameters.parse py with e | args
  · rfl
  · dsimp only
    rcases executeTauToolAction py dom depth ⟨name, args⟩ inst.env with
      ⟨exc | ⟨obs, inc_reward, is_done, data⟩, env'⟩
    · rfl
    · rfl

theorem creditResponse_ident (max_turns : ℤ) (step_res : EnvResponse) (state : State) :
    (creditResponse max_turns step_res state).ident = state.ident := by
  dsimp only [creditResponse]
  split <;> rfl

theorem answerResponse_ident (max_turns : ℤ) (step_res : EnvResponse) (state : State) :
    (answerResponse max_turns step_res state).2.ident = state.ident := by
  dsimp only [answerResponse]
  split <;> rfl

theorem finishResponse_ident (max_turns : ℤ) (result : Except PyErr EnvResponse) (state : State) :
    (finishResponse max_turns result state).2.ident = state.ident := by
  rcases result with exc | step_res
  · rfl
  · exact (answerResponse_ident _ _ _).trans (creditResponse_ident _ _ _)

theorem replayStep_ident (action : Action) (inst : Instance δ υ) :
    (replayStep py dom depth action inst).2.state.ident = inst.state.ident := by
  rw [replayStep]
  rcases step py dom depth action inst.env with ⟨exc | step_res, env⟩
  · rfl
  · rfl

theorem replayRound_ident (replayAction : ReplayAction) (inst : Instance δ υ) :
    (replayRound py dom depth replayAction inst).2.state.ident = inst.state.ident := by
  rw [replayRound]
  split
  · split
    · split
      · rfl
      · exact replayStep_ident _ _
    · rfl
  · split
    · exact replayStep_ident _ _
    · rfl

theorem replayLoop_ident (replayActions : ReplayActions) (ident : Ident) :
    Keeps (replayLoop py dom depth replayActions)
      fun inst : Instance δ υ => inst.state.ident = ident := by
  induction replayActions with
  | nil => exact .pure ()
  | cons replayAction replayActions ih =>
    refine .bind .get fun inst => ?_
    split
    · exact .pure ()
    · exact .bind (fun inst' h => (replayRound_ident replayAction inst').trans h) fun _ => ih

end Anonymous

/-! ### The objects of a rollout -/

def Context.refs (ctx : Context) : List ℕ :=
  ctx.CURRENT_TAU_ENV.toList ++ ctx.CURRENT_TAU_STATE.toList

def Phase.refs : Phase → List ℕ
  | .idle => []
  | .resetting a _ | .reset a _ _ => [a]
  | .replaying a s _ _ | .replayed a s _ _ | .responding a s _ | .responded a s _ => [a, s]

/-- The addresses that a rollout holds. -/
def Local.refs (l : Local) : List ℕ := l.ctx.refs ++ l.phase.refs

/-- The state belongs to the environment and to the rollout. -/
structure Paired (r : Rollout δ υ) (w : World δ υ) (a s : ℕ) : Prop where
  env_id : (w.states s).ident.env_id = a
  instance_id : (w.states s).ident.instance_id = r.instance_id

/-- A call that makes a new environment holds it apart from the one in use, and a response works on
the one in use. -/
def Phase.Inv (r : Rollout δ υ) (w : World δ υ) (ctx : Context) : Phase → Prop
  | .idle => True
  | .resetting a _ | .reset a _ _ => a ∉ ctx.refs
  | .replaying a s _ _ | .replayed a s _ _ => a ∉ ctx.refs ∧ s ∉ ctx.refs ∧ Paired r w a s
  | .responding a s _ | .responded a s _ => ctx = ⟨some a, some s⟩

/-- The invariant of one rollout. -/
structure Local.Inv (r : Rollout δ υ) (l : Local) (w : World δ υ) : Prop where
  refs : ∀ a ∈ l.refs, a < w.next
  ctx : l.ctx = {} ∨ ∃ a s, l.ctx = ⟨some a, some s⟩ ∧ Paired r w a s
  entry : ∀ e, w.instance_dict r.instance_id = some e → l.ctx = ⟨some e.env, some e.state⟩
  phase : l.phase.Inv r w l.ctx

/-- Two worlds hold the same objects at the addresses `refs`. -/
structure Agree (refs : List ℕ) (w w' : World δ υ) : Prop where
  envs : ∀ a ∈ refs, w'.envs a = w.envs a
  states : ∀ s ∈ refs, w'.states s = w.states s

/-- What a step of `r` leaves alone, and where its new addresses come from. -/
structure Frame (r : Rollout δ υ) (l : Local) (w : World δ υ) (out : Local × World δ υ) : Prop where
  next : w.next ≤ out.2.next
  agree : ∀ refs : List ℕ, (∀ a ∈ refs, a < w.next ∧ a ∉ l.refs) → Agree refs w out.2
  dict : ∀ k, k ≠ r.instance_id → out.2.instance_dict k = w.instance_dict k
  refs : ∀ a ∈ out.1.refs, a ∈ l.refs ∨ w.next ≤ a

section Objects

variable {r : Rollout δ υ} {l : Local} {w w' : World δ υ} {refs refs' : List ℕ}

theorem Agree.mono (h : Agree refs w w') (hsub : ∀ a ∈ refs', a ∈ refs) : Agree refs' w w' :=
  ⟨fun a ha => h.envs a (hsub a ha), fun s hs => h.states s (hsub s hs)⟩

theorem Agree.trans {w'' : World δ υ} (h : Agree refs w w') (h' : Agree refs w' w'') :
    Agree refs w w'' :=
  ⟨fun a ha => (h'.envs a ha).trans (h.envs a ha),
    fun s hs => (h'.states s hs).trans (h.states s hs)⟩

theorem agree_refl (refs : List ℕ) (w : World δ υ) : Agree refs w w :=
  ⟨fun _ _ => rfl, fun _ _ => rfl⟩

theorem agree_setEntry (refs : List ℕ) (w : World δ υ) (instanceId : PyStr) (e : Option Entry) :
    Agree refs w (w.setEntry instanceId e) :=
  ⟨fun _ _ => rfl, fun _ _ => rfl⟩

theorem agree_setEnv {a : ℕ} (h : a ∉ refs) (env : Env δ υ) : Agree refs w (w.setEnv a env) :=
  ⟨fun _ hb => Function.update_of_ne (ne_of_mem_of_not_mem hb h) _ _, fun _ _ => rfl⟩

theorem agree_setState {s : ℕ} (h : s ∉ refs) (state : State) :
    Agree refs w (w.setState s state) :=
  ⟨fun _ _ => rfl, fun _ hb => Function.update_of_ne (ne_of_mem_of_not_mem hb h) _ _⟩

theorem agree_newEnv (h : ∀ a ∈ refs, a < w.next) (object : EnvObject δ υ) :
    Agree refs w (w.newEnv object) :=
  ⟨fun a ha => Function.update_of_ne (h a ha).ne _ _, fun _ _ => rfl⟩

theorem agree_newState (h : ∀ a ∈ refs, a < w.next) (state : State) :
    Agree refs w (w.newState state) :=
  ⟨fun _ _ => rfl, fun a ha => Function.update_of_ne (h a ha).ne _ _⟩

theorem mem_refs_of_ctx {a : ℕ} (h : a ∈ l.ctx.refs) : a ∈ l.refs := List.mem_append_left _ h

theorem mem_refs_of_phase {a : ℕ} (h : a ∈ l.phase.refs) : a ∈ l.refs := List.mem_append_right _ h

@[simp] theorem refs_some (a s : ℕ) : Context.refs ⟨some a, some s⟩ = [a, s] := rfl

theorem Paired.congr {a s : ℕ} (h : Paired r w a s)
    (hident : (w'.states s).ident = (w.states s).ident) : Paired r w' a s :=
  ⟨hident ▸ h.env_id, hident ▸ h.instance_id⟩

/-! What a rollout sees is at the addresses that it holds. -/

theorem session_congr {ctx : Context} (h : Agree ctx.refs w w') :
    ctx.session w' = ctx.session w := by
  rcases ctx with ⟨_ | a, _ | s⟩
  · rfl
  · rfl
  · rfl
  · show some (⟨w'.envs a, (w'.states s).anonymous⟩ : Session δ υ) = _
    rw [h.envs a (by simp), h.states s (by simp)]
    rfl

theorem sessionAt_congr {a s : ℕ} (h : Agree [a, s] w w') : w'.sessionAt a s = w.sessionAt a s := by
  rw [World.sessionAt, h.envs a (by simp), h.states s (by simp)]
  rfl

theorem phase_view_congr {phase : Phase} (h : Agree phase.refs w w') :
    phase.view w' = phase.view w := by
  rcases phase with _ | ⟨a, _⟩ | ⟨a, _⟩ | ⟨a, s, _⟩ | ⟨a, s, _⟩ | _ | _
  · rfl
  · exact congrArg (PhaseView.resetting · _) (h.envs a (by simp [Phase.refs]))
  · exact congrArg (PhaseView.reset · _ _) (h.envs a (by simp [Phase.refs]))
  · exact congrArg (PhaseView.replaying · _) (sessionAt_congr h)
  · exact congrArg (fun x => PhaseView.replayed (Except.map (fun _ => x) _)) (sessionAt_congr h)
  · rfl
  · rfl

theorem viewOf_congr (h : Agree l.refs w w')
    (hdict : w'.instance_dict r.instance_id = w.instance_dict r.instance_id) :
    viewOf r l w' = viewOf r l w := by
  rw [viewOf, session_congr (h.mono fun _ => mem_refs_of_ctx), hdict,
    phase_view_congr (h.mono fun _ => mem_refs_of_phase)]
  rfl

theorem Phase.Inv.congr {ctx : Context} {phase : Phase} (h : phase.Inv r w ctx)
    (hagree : Agree phase.refs w w') : phase.Inv r w' ctx := by
  rcases phase with _ | _ | _ | ⟨a, s, _⟩ | ⟨a, s, _⟩ | _ | _
  · trivial
  · exact h
  · exact h
  · exact ⟨h.1, h.2.1, h.2.2.congr (congrArg State.ident (hagree.states s (by simp [Phase.refs])))⟩
  · exact ⟨h.1, h.2.1, h.2.2.congr (congrArg State.ident (hagree.states s (by simp [Phase.refs])))⟩
  · exact h
  · exact h

theorem ctx_congr {ctx : Context} (h : ctx = {} ∨ ∃ a s, ctx = ⟨some a, some s⟩ ∧ Paired r w a s)
    (hagree : ∀ s ∈ ctx.refs, (w'.states s).ident = (w.states s).ident) :
    ctx = {} ∨ ∃ a s, ctx = ⟨some a, some s⟩ ∧ Paired r w' a s := by
  obtain h | ⟨a, s, rfl, hpaired⟩ := h
  · exact .inl h
  · exact .inr ⟨a, s, rfl, hpaired.congr (hagree s (by simp))⟩

/-- The invariant of a rollout survives what the others do. -/
theorem Local.Inv.congr (h : Local.Inv r l w) (hnext : w.next ≤ w'.next)
    (hagree : Agree l.refs w w')
    (hdict : w'.instance_dict r.instance_id = w.instance_dict r.instance_id) :
    Local.Inv r l w' where
  refs := fun a ha => (h.refs a ha).trans_le hnext
  ctx := ctx_congr h.ctx fun s hs => congrArg State.ident (hagree.states s (mem_refs_of_ctx hs))
  entry := fun e he => h.entry e (hdict ▸ he)
  phase := h.phase.congr (hagree.mono fun _ => mem_refs_of_phase)

end Objects

/-! ### One step -/

/-- What is proved of a step: what it leaves alone, that it keeps the invariant, what the rollout
sees of it, and what it leaves of the shared arguments. -/
structure Sound (r : Rollout δ υ) (l : Local) (w : World δ υ) (out : Local × World δ υ)
    (v : View δ υ × Shared) : Prop where
  frame : Frame r l w out
  inv : Local.Inv r out.1 out.2
  view : viewOf r out.1 out.2 = v.1
  shared : out.2.shared = v.2

section Sound

variable {setup : Setup} {r : Rollout δ υ} {l : Local} {w : World δ υ}

theorem Frame.trans {l₁ : Local} {w₁ : World δ υ} {out : Local × World δ υ}
    (h : Frame r l w (l₁, w₁)) (h' : Frame r l₁ w₁ out) : Frame r l w out where
  next := h.next.trans h'.next
  agree := by
    intro refs hrefs
    refine (h.agree refs hrefs).trans (h'.agree refs fun a ha => ⟨?_, fun hmem => ?_⟩)
    · exact (hrefs a ha).1.trans_le h.next
    · rcases h.refs a hmem with hold | hfresh
      · exact (hrefs a ha).2 hold
      · exact absurd (hrefs a ha).1 (not_lt.mpr hfresh)
  dict := fun k hk => (h'.dict k hk).trans (h.dict k hk)
  refs := by
    intro a ha
    rcases h'.refs a ha with hmid | hfresh
    · exact h.refs a hmid
    · exact .inr (h.next.trans hfresh)

theorem Sound.trans {l₁ : Local} {w₁ : World δ υ} {out : Local × World δ υ}
    {v₁ v : View δ υ × Shared} (h : Sound r l w (l₁, w₁) v₁) (h' : Sound r l₁ w₁ out v) :
    Sound r l w out v :=
  ⟨h.frame.trans h'.frame, h'.inv, h'.view, h'.shared⟩

/-- Only objects at the addresses `refs` were written, and no state changed its ids. -/
structure Written (refs : List ℕ) (w w' : World δ υ) : Prop where
  next : w'.next = w.next
  dict : w'.instance_dict = w.instance_dict
  ident : ∀ s, (w'.states s).ident = (w.states s).ident
  agree : ∀ refs' : List ℕ, (∀ a ∈ refs', a ∉ refs) → Agree refs' w w'

theorem written_refl (refs : List ℕ) (w : World δ υ) : Written refs w w :=
  ⟨rfl, rfl, fun _ => rfl, fun refs' _ => agree_refl refs' w⟩

theorem written_setEnv {refs : List ℕ} {a : ℕ} (ha : a ∈ refs) (env : Env δ υ) :
    Written refs w (w.setEnv a env) :=
  ⟨rfl, rfl, fun _ => rfl, fun _ hout => agree_setEnv (fun hmem => hout a hmem ha) env⟩

theorem written_setState {refs : List ℕ} {s : ℕ} (hs : s ∈ refs) {state : State}
    (hident : state.ident = (w.states s).ident) : Written refs w (w.setState s state) where
  next := rfl
  dict := rfl
  ident := by
    intro t
    rcases eq_or_ne t s with rfl | ht
    · rw [setState_states_self]
      exact hident
    · rw [setState_states_of_ne w ht]
  agree := fun _ hout => agree_setState (fun hmem => hout s hmem hs) state

theorem Written.trans {refs : List ℕ} {w' w'' : World δ υ} (h : Written refs w w')
    (h' : Written refs w' w'') : Written refs w w'' where
  next := h'.next.trans h.next
  dict := h'.dict.trans h.dict
  ident := fun s => (h'.ident s).trans (h.ident s)
  agree := fun refs' hout => (h.agree refs' hout).trans (h'.agree refs' hout)

/-- A step that writes to objects of the rollout, and keeps its context. -/
theorem write_sound {w' : World δ υ} {phase : Phase} {log : List Outcome} {v : View δ υ}
    {shared : Shared}
    (h : Local.Inv r l w) (hw : Written l.refs w w') (hsub : ∀ a ∈ phase.refs, a ∈ l.refs)
    (hphase : phase.Inv r w' l.ctx) (hview : viewOf r ⟨l.ctx, phase, log⟩ w' = v)
    (hshared : w'.shared = shared) : Sound r l w (⟨l.ctx, phase, log⟩, w') (v, shared) := by
  have hrefs : ∀ a ∈ l.ctx.refs ++ phase.refs, a ∈ l.refs := by
    intro a ha
    rcases List.mem_append.mp ha with ha | ha
    · exact mem_refs_of_ctx ha
    · exact hsub a ha
  refine ⟨?_, ?_, hview, hshared⟩
  · constructor
    · exact hw.next.ge
    · exact fun refs hout => hw.agree refs fun a ha => (hout a ha).2
    · exact fun k _ => congrFun hw.dict k
    · exact fun a ha => .inl (hrefs a ha)
  · constructor
    · exact fun a ha => hw.next ▸ h.refs a (hrefs a ha)
    · exact ctx_congr h.ctx fun s _ => hw.ident s
    · exact fun e he => h.entry e (hw.dict ▸ he)
    · exact hphase

@[simp] theorem answer_refs (outcome : Outcome) : (l.answer outcome).refs = l.ctx.refs :=
  List.append_nil _

theorem answer_sound (h : Local.Inv r l w) (outcome : Outcome) :
    Sound r l w (l.answer outcome, w) ((viewOf r l w).answer outcome, w.shared) :=
  write_sound h (written_refl _ w) (fun _ ha => nomatch ha) trivial rfl rfl

/-- What the rollout sees of its own objects after writing to them. -/
theorem sessionAt_write (a s : ℕ) (env : Env δ υ) (state : State) :
    ((w.setEnv a env).setState s state).sessionAt a s =
      ⟨{ w.envs a with env := env }, state.anonymous⟩ := by
  rw [World.sessionAt, setState_envs, setEnv_envs_self, setState_states_self]

/-! #### The four calls -/

theorem start_sound (h : Local.Inv r l w) (replayActions : ReplayActions) :
    Sound r l w (beginCall setup r l w (.start_interaction replayActions))
      ((viewOf r l w).begin setup r w.shared (.start_interaction replayActions)) := by
  have hrefs : ∀ a ∈ l.ctx.refs, a < w.next := fun a ha => h.refs a (mem_refs_of_ctx ha)
  constructor
  · constructor
    · exact Nat.le_succ w.next
    · exact fun refs hout => agree_newEnv (fun a ha => (hout a ha).1) _
    · exact fun k _ => rfl
    · intro a ha
      rcases List.mem_append.mp ha with ha | ha
      · exact .inl (mem_refs_of_ctx ha)
      · exact .inr (List.mem_singleton.mp ha).ge
  · constructor
    · intro a ha
      rcases List.mem_append.mp ha with ha | ha
      · exact (hrefs a ha).trans (Nat.lt_succ_self _)
      · exact (List.mem_singleton.mp ha) ▸ Nat.lt_succ_self _
    · exact ctx_congr h.ctx fun _ _ => rfl
    · exact h.entry
    · exact fun hmem => (hrefs _ hmem).false
  · show View.mk _ _ _ _ = View.mk _ _ _ _
    congr 1
    · exact session_congr (agree_newEnv hrefs _)
    · exact congrArg (PhaseView.resetting · _) (Function.update_self _ _ _)
  · rfl

theorem execute_sound (h : Local.Inv r l w) (name : PyStr) (parameters : Parameters) :
    Sound r l w (beginCall setup r l w (.execute name parameters))
      ((viewOf r l w).begin setup r w.shared (.execute name parameters)) := by
  rcases l with ⟨ctx, phase, log⟩
  rcases h.ctx with rfl | ⟨a, s, rfl, hpaired⟩
  · exact answer_sound h _
  · have hident : (execute setup.py (w.envs a).dom setup.depth name parameters
        ⟨w.envNow a, w.states s⟩).2.state.ident = (w.states s).ident := execute_ident _ _ _
    obtain ⟨houtcome, henv, hstate⟩ := @execute_anonymous δ υ setup.py (w.envs a).dom setup.depth
      name parameters (w.envNow a) (w.states s)
    have hbegin : ¬(w.states s).ident.env_id ≠ a := not_not.mpr hpaired.env_id
    simp only [beginCall, if_neg hbegin]
    refine write_sound h ?_ (fun _ ha => nomatch ha) trivial ?_ ?_
    · exact (written_setEnv (mem_refs_of_ctx (by simp)) _).trans
        (written_setState (mem_refs_of_ctx (by simp)) hident)
    · show View.mk (some (World.sessionAt _ a s)) _ _ _ = View.mk _ _ _ _
      rw [sessionAt_write]
      congr 1
      · show some _ = some _
        rw [← hstate, ← henv]
        rfl
      · rw [← houtcome]
        rfl
    · exact congrArg (·.shared) henv.symm

theorem generate_sound (h : Local.Inv r l w) (messages : List (List (PyStr × PyVal))) :
    Sound r l w (beginCall setup r l w (.generate_response messages))
      ((viewOf r l w).begin setup r w.shared (.generate_response messages)) := by
  rcases hentry : w.instance_dict r.instance_id with _ | entry
  · have hregistered : (viewOf r l w).registered = false := by rw [viewOf, hentry]; rfl
    simp only [beginCall, View.begin, hentry, hregistered]
    exact answer_sound h _
  · have hregistered : (viewOf r l w).registered = true := by rw [viewOf, hentry]; rfl
    rcases l with ⟨ctx, phase, log⟩
    obtain rfl : ctx = ⟨some entry.env, some entry.state⟩ := h.entry entry hentry
    obtain ⟨henv, hinstance⟩ : Paired r w entry.env entry.state := by
      rcases h.ctx with hctx | ⟨a, s, hctx, hpaired⟩
      · cases hctx
      · cases hctx
        exact hpaired
    have hmatch : ¬((w.states entry.state).ident.instance_id ≠ r.instance_id ∨
        (w.states entry.state).ident.env_id ≠ entry.env) := by
      rw [not_or, not_not, not_not]
      exact ⟨hinstance, henv⟩
    simp only [beginCall, View.begin, hentry, hregistered, if_neg hmatch, if_true]
    refine write_sound h (written_refl _ w) (fun _ ha => mem_refs_of_ctx ha) rfl ?_ rfl
    rw [← hregistered]
    rfl

theorem finalize_sound (h : Local.Inv r l w) :
    Sound r l w (beginCall setup r l w .finalize_interaction)
      ((viewOf r l w).begin setup r w.shared .finalize_interaction) := by
  have hentry : (w.setEntry r.instance_id none).instance_dict r.instance_id = none :=
    Function.update_self _ _ _
  constructor
  · constructor
    · exact le_rfl
    · exact fun refs _ => agree_setEntry refs w _ _
    · exact fun k hk => Function.update_of_ne hk _ _
    · exact fun a ha => .inl (mem_refs_of_ctx (answer_refs _ ▸ ha))
  · constructor
    · exact fun a ha => h.refs a (mem_refs_of_ctx (answer_refs _ ▸ ha))
    · exact ctx_congr h.ctx fun _ _ => rfl
    · exact fun e he => by rw [beginCall, hentry] at he; cases he
    · trivial
  · show View.mk _ _ _ _ = View.mk _ _ _ _
    rw [beginCall, hentry]
    rfl
  · rfl

theorem beginCall_sound (h : Local.Inv r l w) (call : Call) :
    Sound r l w (beginCall setup r l w call) ((viewOf r l w).begin setup r w.shared call) := by
  cases call with
  | start_interaction replayActions => exact start_sound h replayActions
  | execute name parameters => exact execute_sound h name parameters
  | generate_response messages => exact generate_sound h messages
  | finalize_interaction => exact finalize_sound h

/-! #### After an interruption -/

/-- The end of `start_interaction` makes the new environment and state those of the rollout. -/
theorem publish_sound {env state : ℕ} (h : Local.Inv r l w) (hsub : ∀ a ∈ [env, state], a ∈ l.refs)
    (hpaired : Paired r w env state) (response : PyStr) :
    Sound r l w (publish r env state response l w)
      ((viewOf r l w).publish (w.sessionAt env state), w.shared) := by
  have hentry : (w.setEntry r.instance_id (some ⟨env, state, response⟩)).instance_dict
      r.instance_id = some ⟨env, state, response⟩ := Function.update_self _ _ _
  constructor
  · constructor
    · exact le_rfl
    · exact fun refs _ => agree_setEntry refs w _ _
    · exact fun k hk => Function.update_of_ne hk _ _
    · exact fun a ha => .inl (hsub a ha)
  · constructor
    · exact fun a ha => h.refs a (hsub a ha)
    · exact .inr ⟨env, state, rfl, hpaired.congr rfl⟩
    · intro e he
      rw [publish, hentry] at he
      cases he
      rfl
    · trivial
  · show View.mk _ _ _ _ = View.mk _ _ _ _
    rw [publish, hentry]
    rfl
  · rfl

/-- A new state for the environment `a`, which waits to be published. -/
theorem newState_sound {a : ℕ} {ident : Ident} (h : Local.Inv r l w) (ha : a ∈ l.phase.refs)
    (hctx : a ∉ l.ctx.refs) (henv : ident.env_id = a)
    (hinstance : ident.instance_id = r.instance_id)
    (replayActions : ReplayActions) (response : PyStr) :
    Sound r l w
      ({ l with phase := .replaying a w.next replayActions response },
        w.newState (makeInitialState ident))
      ({ viewOf r l w with
          phase := .replaying ⟨w.envs a, (makeInitialState ident).anonymous⟩ replayActions },
        w.shared) := by
  have hrefs : ∀ b ∈ l.ctx.refs, b < w.next := fun b hb => h.refs b (mem_refs_of_ctx hb)
  have hagree : Agree l.ctx.refs w (w.newState (makeInitialState ident)) := agree_newState hrefs _
  have hself := newState_states_self w (makeInitialState ident)
  constructor
  · constructor
    · exact Nat.le_succ w.next
    · exact fun refs hout => agree_newState (fun b hb => (hout b hb).1) _
    · exact fun k _ => rfl
    · intro b hb
      rcases List.mem_append.mp hb with hb | hb
      · exact .inl (mem_refs_of_ctx hb)
      · rcases List.mem_pair.mp hb with rfl | rfl
        · exact .inl (mem_refs_of_phase ha)
        · exact .inr le_rfl
  · constructor
    · intro b hb
      rcases List.mem_append.mp hb with hb | hb
      · exact (hrefs b hb).trans (Nat.lt_succ_self _)
      · rcases List.mem_pair.mp hb with rfl | rfl
        · exact (h.refs b (mem_refs_of_phase ha)).trans (Nat.lt_succ_self _)
        · exact Nat.lt_succ_self _
    · exact ctx_congr h.ctx fun s hs => congrArg State.ident (hagree.states s hs)
    · exact h.entry
    · refine ⟨hctx, fun hmem => (hrefs _ hmem).false, ?_, ?_⟩
      · rw [hself]
        exact henv
      · rw [hself]
        exact hinstance
  · show View.mk _ _ _ _ = View.mk _ _ _ _
    congr 1
    · exact session_congr hagree
    · show PhaseView.replaying ⟨w.envs a, (World.states _ w.next).anonymous⟩ _ = _
      rw [hself]
  · rfl

theorem afterReset_sound {a : ℕ} (h : Local.Inv r l w) (ha : a ∈ l.phase.refs)
    (hctx : a ∉ l.ctx.refs)
    (replayActions : ReplayActions) (result : Except PyErr PyStr) :
    Sound r l w (afterReset setup r a replayActions l w result)
      ((viewOf r l w).afterReset r (w.envs a) replayActions result, w.shared) := by
  rcases result with e | response
  · exact answer_sound h _
  · let ident : Ident := ⟨r.instance_id, setup.uuid4 w.next, r.task_id, a⟩
    have hnew := newState_sound h ha hctx (show ident.env_id = a from rfl) rfl
      replayActions response
    rw [afterReset, View.afterReset]
    split
    · have hpublish := publish_sound hnew.inv (fun b hb => mem_refs_of_phase hb) hnew.inv.phase.2.2
        response
      rw [World.sessionAt, newState_states_self] at hpublish
      exact hnew.trans hpublish
    · exact hnew

theorem replayInThread_anonymous (dom : Domain δ υ) (replayActions : ReplayActions) :
    IgnoresIds (replayInThread setup dom replayActions) := by
  rw [replayInThread]
  split
  · exact fun _ => rfl
  · exact replayLoop_anonymous replayActions

theorem replayInThread_ident (dom : Domain δ υ) (replayActions : ReplayActions)
    (inst : Instance δ υ) :
    (replayInThread setup dom replayActions inst).2.state.ident = inst.state.ident := by
  rw [replayInThread]
  split
  · rfl
  · exact replayLoop_ident replayActions _ inst rfl

theorem replay_sound {a s : ℕ} (h : Local.Inv r l w) (ha : a ∈ l.phase.refs) (hs : s ∈ l.phase.refs)
    (hphase : a ∉ l.ctx.refs ∧ s ∉ l.ctx.refs ∧ Paired r w a s) (replayActions : ReplayActions)
    (response : PyStr) :
    let out := replayInThread setup (w.envs a).dom replayActions ⟨w.envNow a, w.states s⟩
    let out' := replayInThread setup (w.envs a).dom replayActions
      ⟨w.envNow a, (w.states s).anonymous⟩
    Sound r l w
      ({ l with phase := .replayed a s response out.1 },
        (w.setEnv a out.2.env).setState s out.2.state)
      ({ viewOf r l w with
          phase := .replayed (out'.1.map fun _ =>
            ⟨{ w.envs a with env := out'.2.env }, out'.2.state⟩) }, out'.2.env.shared) := by
  intro out out'
  obtain ⟨hactx, hsctx, hpaired⟩ := hphase
  have hsub : ∀ b ∈ [a, s], b ∈ l.refs := by
    intro b hb
    rcases List.mem_pair.mp hb with rfl | rfl
    · exact mem_refs_of_phase ha
    · exact mem_refs_of_phase hs
  have hout : out' = (out.1, out.2.anonymous) :=
    replayInThread_anonymous (w.envs a).dom replayActions ⟨w.envNow a, w.states s⟩
  have hident : out.2.state.ident = (w.states s).ident := replayInThread_ident _ replayActions _
  rw [hout]
  refine write_sound h ?_ hsub ?_ ?_ rfl
  · exact (written_setEnv (hsub a (by simp)) _).trans (written_setState (hsub s (by simp)) hident)
  · refine ⟨hactx, hsctx, hpaired.congr ?_⟩
    rw [setState_states_self]
    exact hident
  · show View.mk _ _ (PhaseView.replayed (out.1.map fun _ => World.sessionAt _ a s)) _ =
      View.mk _ _ _ _
    rw [sessionAt_write]
    congr 1
    exact session_congr ((agree_setEnv hactx _).trans (agree_setState hsctx _))

/-- `env.reset`, in its thread. -/
theorem reset_sound {a : ℕ} (h : Local.Inv r l w) (ha : a ∈ l.phase.refs) (hctx : a ∉ l.ctx.refs)
    (replayActions : ReplayActions) :
    let out := reset (w.envs a).dom (w.envNow a)
    Sound r l w ({ l with phase := .reset a replayActions out.1 }, w.setEnv a out.2)
      ({ viewOf r l w with
          phase := .reset { w.envs a with env := out.2 } replayActions out.1 }, out.2.shared) := by
  intro out
  refine write_sound h (written_setEnv (mem_refs_of_phase ha) _) ?_ hctx ?_ rfl
  · intro b hb
    exact List.mem_singleton.mp hb ▸ mem_refs_of_phase ha
  · show View.mk _ _ (PhaseView.reset (World.envs _ a) _ _) _ = View.mk _ _ _ _
    rw [setEnv_envs_self]
    congr 1
    exact session_congr (agree_setEnv hctx _)

/-- `env.step` of a response, in its thread. -/
theorem respond_sound {a s : ℕ} (h : Local.Inv r l w) (hctx : l.ctx = ⟨some a, some s⟩)
    (messages : List (List (PyStr × PyVal))) :
    let out := step setup.py (w.envs a).dom setup.depth (respondAction messages) (w.envNow a)
    Sound r l w ({ l with phase := .responded a s out.1 }, w.setEnv a out.2)
      ({ viewOf r l w with
          phase := .responded out.1
          session := some ⟨{ w.envs a with env := out.2 }, (w.states s).anonymous⟩ },
        out.2.shared) := by
  intro out
  rcases l with ⟨ctx, phase, log⟩
  obtain rfl : ctx = ⟨some a, some s⟩ := hctx
  refine write_sound h (written_setEnv (mem_refs_of_ctx (by simp)) _) ?_ rfl ?_ rfl
  · exact fun b hb => mem_refs_of_ctx hb
  · show View.mk (some (World.sessionAt _ a s)) _ _ _ = View.mk _ _ _ _
    rw [World.sessionAt, setEnv_envs_self]
    rfl

/-- The end of `generate_response`. -/
theorem finish_sound {a s : ℕ} (h : Local.Inv r l w) (hctx : l.ctx = ⟨some a, some s⟩)
    (result : Except PyErr EnvResponse) :
    let out := finishResponse setup.max_turns result (w.states s)
    let out' := finishResponse setup.max_turns result (w.states s).anonymous
    Sound r l w (l.answer (responseOutcome out.1), w.setState s out.2)
      ({ (viewOf r l w).answer (responseOutcome out'.1) with
          session := some ⟨w.envs a, out'.2⟩ }, w.shared) := by
  intro out out'
  obtain ⟨houtcome, hstate⟩ := finishResponse_anonymous setup.max_turns result (w.states s)
  rcases l with ⟨ctx, phase, log⟩
  obtain rfl : ctx = ⟨some a, some s⟩ := hctx
  refine write_sound h ?_ (fun _ hb => nomatch hb) trivial ?_ rfl
  · exact written_setState (mem_refs_of_ctx (by simp)) (finishResponse_ident _ _ _)
  · show View.mk (some (World.sessionAt _ a s)) _ _ _ = View.mk _ _ _ _
    rw [World.sessionAt, setState_envs, setState_states_self, houtcome, hstate]
    rfl

/-- **One step of a rollout**, whatever the other rollouts have done. -/
theorem rolloutStep_sound (h : Local.Inv r l w) :
    Sound r l w (rolloutStep setup r l w) (viewStep setup r w.shared (viewOf r l w)) := by
  rcases l with ⟨ctx, phase, log⟩
  rcases phase with _ | ⟨a, ra⟩ | ⟨a, ra, result⟩ | ⟨a, s, ra, response⟩ |
    ⟨a, s, response, e | ⟨⟩⟩ | ⟨a, s, messages⟩ | ⟨a, s, result⟩
  · show Sound r _ w (match r.next log with | none => _ | some call => _)
      (match r.next log with | none => _ | some call => _)
    rcases r.next log with _ | call
    · exact write_sound h (written_refl _ w) (fun _ hb => nomatch hb) trivial rfl rfl
    · exact beginCall_sound h call
  · exact reset_sound h (by simp [Phase.refs]) h.phase ra
  · exact afterReset_sound h (by simp [Phase.refs]) h.phase ra result
  · exact replay_sound h (by simp [Phase.refs]) (by simp [Phase.refs]) h.phase ra response
  · exact answer_sound h _
  · exact publish_sound h (fun b hb => mem_refs_of_phase hb) h.phase.2.2 response
  · obtain rfl : ctx = ⟨some a, some s⟩ := h.phase
    exact respond_sound h rfl messages
  · obtain rfl : ctx = ⟨some a, some s⟩ := h.phase
    exact finish_sound h rfl result

end Sound

/-! ### All rollouts -/

section Rollouts

open Interleaving

variable {ι : Type} [DecidableEq ι] {setup : Setup} {rollouts : ι → Rollout δ υ}

/-- The rollouts take turns. -/
def rolloutsStep (setup : Setup) (rollouts : ι → Rollout δ υ) (i : ι) (l : Local) (w : World δ υ) :
    Local × World δ υ :=
  rolloutStep setup (rollouts i) l w

def view (rollouts : ι → Rollout δ υ) (i : ι) (c : Config ι (World δ υ) Local) : View δ υ :=
  viewOf (rollouts i) (c.1 i) c.2

/-- The invariant: no two rollouts hold the same object. -/
structure Separated (rollouts : ι → Rollout δ υ) (c : Config ι (World δ υ) Local) : Prop where
  inv : ∀ i, Local.Inv (rollouts i) (c.1 i) c.2
  disjoint : ∀ i j, i ≠ j → (c.1 i).refs.Disjoint (c.1 j).refs

section Turn

variable {c : Config ι (World δ υ) Local}

/-- A turn of `j` leaves the objects of `i` alone. -/
theorem Separated.agree (h : Separated rollouts c) {i j : ι} (hij : i ≠ j) :
    Agree (c.1 i).refs c.2 (turn (rolloutsStep setup rollouts) c j).2 :=
  (rolloutStep_sound (h.inv j)).frame.agree _ fun a ha =>
    ⟨(h.inv i).refs a ha, fun hmem => h.disjoint i j hij ha hmem⟩

theorem Separated.turn_dict (hid : Function.Injective fun i => (rollouts i).instance_id)
    (h : Separated rollouts c) {i j : ι} (hij : i ≠ j) :
    (turn (rolloutsStep setup rollouts) c j).2.instance_dict (rollouts i).instance_id =
      c.2.instance_dict (rollouts i).instance_id :=
  (rolloutStep_sound (h.inv j)).frame.dict _ fun heq => hij (hid heq)

/-- The addresses of `j` after its turn are not those of `i`. -/
theorem Separated.turn_disjoint (h : Separated rollouts c) {i j : ι} (hij : i ≠ j) :
    (c.1 i).refs.Disjoint ((turn (rolloutsStep setup rollouts) c j).1 j).refs := by
  intro a hi hj
  rw [turn_self] at hj
  rcases (rolloutStep_sound (h.inv j)).frame.refs a hj with hold | hfresh
  · exact h.disjoint i j hij hi hold
  · exact absurd ((h.inv i).refs a hi) (not_lt.mpr hfresh)

theorem Separated.turn (hid : Function.Injective fun i => (rollouts i).instance_id)
    (h : Separated rollouts c) (j : ι) :
    Separated rollouts (turn (rolloutsStep setup rollouts) c j) where
  inv := by
    intro i
    by_cases hij : i = j
    · subst hij
      rw [turn_self]
      exact (rolloutStep_sound (h.inv i)).inv
    · rw [turn_of_ne _ c hij]
      exact (h.inv i).congr (rolloutStep_sound (h.inv j)).frame.next (h.agree hij)
        (h.turn_dict hid hij)
  disjoint := by
    intro i k hik
    by_cases hij : i = j
    · subst hij
      rw [turn_of_ne _ c (Ne.symm hik)]
      exact fun a ha ha' => h.turn_disjoint (Ne.symm hik) ha' ha
    · rw [turn_of_ne _ c hij]
      by_cases hkj : k = j
      · subst hkj
        exact h.turn_disjoint hij
      · rw [turn_of_ne _ c hkj]
        exact h.disjoint i k hik

end Turn

/-- **Every rollout is a machine of its own**, but for the shared arguments. -/
theorem rollouts_unwind (setup : Setup)
    (hid : Function.Injective fun i => (rollouts i).instance_id) :
    Unwinding (rolloutsStep setup rollouts) (Separated rollouts) (view rollouts) World.shared
      fun i => viewStep setup (rollouts i) where
  invariant := fun _ j h => h.turn hid j
  own := by
    intro c i h
    have hsound : Sound (rollouts i) (c.1 i) c.2 (rolloutStep setup (rollouts i) (c.1 i) c.2) _ :=
      rolloutStep_sound (h.inv i)
    rw [view, turn_self]
    exact Prod.ext hsound.view hsound.shared
  other := by
    intro c i j h hij
    rw [view, turn_of_ne _ c hij]
    exact viewOf_congr (h.agree hij) (h.turn_dict hid hij)

/-- No rollout has started. -/
def initialConfig (w : World δ υ) : Config ι (World δ υ) Local := (fun _ => {}, w)

omit [DecidableEq ι] in
theorem initialConfig_separated {w : World δ υ}
    (hw : ∀ i, w.instance_dict (rollouts i).instance_id = none) :
    Separated rollouts (initialConfig w) where
  inv := fun i =>
    { refs := fun _ ha => nomatch ha
      ctx := .inl rfl
      entry := fun e he => by rw [initialConfig, hw i] at he; cases he
      phase := trivial }
  disjoint := fun _ _ _ _ ha => nomatch ha

/-- A turn that leaves the arguments as they were that tasks and recorded actions hold. -/
def SparesShared (setup : Setup) (rollouts : ι → Rollout δ υ) (c : Config ι (World δ υ) Local)
    (i : ι) : Prop :=
  KeepsCommon (rolloutsStep setup rollouts) World.shared c i

/-- **Isolation.** The rollouts share one interaction and are interrupted anywhere, and no step
writes to arguments that tasks and recorded actions hold. At any time each stands, in its
environment, its state and what it was told, where it would stand had it run alone, be it in another
world with the same shared arguments. -/
theorem rollout_isolated (setup : Setup) (rollouts : ι → Rollout δ υ)
    (hid : Function.Injective fun i => (rollouts i).instance_id) (w w' : World δ υ)
    (hw : ∀ i, w.instance_dict (rollouts i).instance_id = none)
    (hw' : ∀ i, w'.instance_dict (rollouts i).instance_id = none) (hshared : w.shared = w'.shared)
    (schedule : List ι)
    (hspares : Runs.Guarded (turn (rolloutsStep setup rollouts)) (SparesShared setup rollouts)
      (initialConfig w) schedule) (i : ι) :
    view rollouts i (run (rolloutsStep setup rollouts) (initialConfig w) schedule) =
      view rollouts i (run (rolloutsStep setup rollouts) (initialConfig w')
        (schedule.filter (· = i))) := by
  refine (rollouts_unwind setup hid).view_alone i schedule (initialConfig_separated hw)
    (initialConfig_separated hw') ?_ hshared hspares
  show View.mk none _ _ _ = View.mk none _ _ _
  rw [initialConfig, initialConfig, hw i, hw' i]
  rfl

/-! #### Harmless tools -/

/-- A world in which no environment has a tool that writes to shared arguments. -/
def World.Harmless (w : World δ υ) : Prop := ∀ a, (w.envs a).dom.Harmless

/-- What harmless tools leave of a world. -/
structure Unharmed (w w' : World δ υ) : Prop where
  shared : w'.shared = w.shared
  harmless : w'.Harmless

theorem World.Harmless.setEnv {w : World δ υ} (hw : w.Harmless) {env : Env δ υ} (a : ℕ)
    (hshared : env.shared = w.shared) : Unharmed w (w.setEnv a env) := by
  refine ⟨hshared, fun b => ?_⟩
  rcases eq_or_ne b a with rfl | hb
  · rw [setEnv_envs_self]
    exact hw b
  · rw [setEnv_envs_of_ne w hb]
    exact hw b

theorem World.Harmless.newEnv {w : World δ υ} (hw : w.Harmless) {object : EnvObject δ υ}
    (hobject : object.dom.Harmless) : Unharmed w (w.newEnv object) := by
  refine ⟨rfl, fun b => ?_⟩
  rcases eq_or_ne b w.next with rfl | hb
  · rw [newEnv_envs_self]
    exact hobject
  · rw [newEnv_envs_of_ne w hb]
    exact hw b

section Harmless

variable {r : Rollout δ υ} {w : World δ υ}

theorem beginCall_harmless (hr : r.dom.Harmless) (hw : w.Harmless) (l : Local)
    (call : Call) : Unharmed w (beginCall setup r l w call).2 := by
  have hself : Unharmed w w := ⟨rfl, hw⟩
  cases call with
  | start_interaction replayActions => exact hw.newEnv hr
  | execute name parameters =>
    rw [beginCall]
    split
    · next a s _ _ =>
      split
      · exact hself
      · have hkept : (execute setup.py (w.envs a).dom setup.depth name parameters
            ⟨w.envNow a, w.states s⟩).2.env.shared = w.shared :=
          (Invariant.of_harmless (hw a) w.shared).execute (given_all _) rfl
        exact ⟨(hw.setEnv a hkept).shared, (hw.setEnv a hkept).harmless⟩
    · exact hself
  | generate_response messages =>
    rw [beginCall]
    split
    · exact hself
    · dsimp only
      split
      · exact hself
      · exact hself
  | finalize_interaction => exact ⟨rfl, hw⟩

theorem replayInThread_harmless {dom : Domain δ υ} (h : dom.Harmless)
    (replayActions : ReplayActions) (inst : Instance δ υ) :
    (replayInThread setup dom replayActions inst).2.env.shared = inst.env.shared := by
  rw [replayInThread]
  split
  · rfl
  · exact (Invariant.of_harmless h inst.env.shared).replayLoop (fun _ _ _ _ => trivial) inst rfl

/-- **A step of harmless environments** leaves the shared arguments as they were. -/
theorem rolloutStep_harmless (hr : r.dom.Harmless) (hw : w.Harmless) (l : Local) :
    Unharmed w (rolloutStep setup r l w).2 := by
  have hself : Unharmed w w := ⟨rfl, hw⟩
  rcases l with ⟨ctx, phase, log⟩
  rcases phase with _ | ⟨a, ra⟩ | ⟨a, ra, e | response⟩ | ⟨a, s, ra, response⟩ |
    ⟨a, s, response, e | ⟨⟩⟩ | ⟨a, s, messages⟩ | ⟨a, s, result⟩
  · show Unharmed w (match r.next log with | none => _ | some call => _ : Local × World δ υ).2
    rcases r.next log with _ | call
    · exact hself
    · exact beginCall_harmless hr hw _ call
  · exact hw.setEnv a ((Invariant.of_harmless (hw a) w.shared).reset (w.envNow a) rfl)
  · exact hself
  · show Unharmed w (if _ then _ else _ : Local × World δ υ).2
    split
    · exact ⟨rfl, hw⟩
    · exact ⟨rfl, hw⟩
  · have hshared : (replayInThread setup (w.envs a).dom ra
        ⟨w.envNow a, w.states s⟩).2.env.shared = w.shared := replayInThread_harmless (hw a) ra _
    have hkept := hw.setEnv a hshared
    exact ⟨hkept.shared, hkept.harmless⟩
  · exact hself
  · exact ⟨rfl, hw⟩
  · exact hw.setEnv a
      ((Invariant.of_harmless (hw a) w.shared).step (respondAction messages) trivial (w.envNow a) rfl)
  · exact ⟨rfl, hw⟩

end Harmless

/-- In a world of harmless environments no schedule writes to the shared arguments, so that there
every rollout is isolated. -/
theorem guarded_of_harmless (h : ∀ i, (rollouts i).dom.Harmless) (schedule : List ι) :
    ∀ {c : Config ι (World δ υ) Local}, c.2.Harmless →
      Runs.Guarded (turn (rolloutsStep setup rollouts)) (SparesShared setup rollouts) c
        schedule := by
  induction schedule with
  | nil => exact fun _ => trivial
  | cons i schedule ih =>
    intro c hc
    have hstep : Unharmed c.2 (rolloutStep setup (rollouts i) (c.1 i) c.2).2 :=
      rolloutStep_harmless (h i) hc (c.1 i)
    exact ⟨hstep.shared, ih hstep.harmless⟩

end Rollouts

/-- Two rollouts that start and hand over to a human. -/
def sampleRollouts (i : Bool) : Rollout Unit Unit where
  instance_id := if i then "second" else "first"
  task_id := 0
  dom := sampleDomain
  user := ()
  next log :=
    match log with
    | [] => some (.start_interaction [])
    | [_] => some (.execute "transfer_to_human_agents"
        (.value (.dict [("summary", .str "transfer")])))
    | _ => none

def sampleSetup : Setup := ⟨.silent, 9, 24, false, fun _ => []⟩

def sampleWorld : World Unit Unit :=
  ⟨fun _ => ⟨sampleDomain, ⟨⟨(), [], fun _ => []⟩, [], ()⟩⟩, fun _ => makeInitialState ⟨[], [], 0, 0⟩,
    fun _ => none, 0, fun _ => []⟩

/-- They start at the same time, and the second hands over first. -/
def sampleSchedule : List Bool := [false, true, true, false, false, true, true, false]

theorem sampleRollouts_injective : Function.Injective fun i => (sampleRollouts i).instance_id := by
  intro i j h
  rcases i with - | - <;> rcases j with - | - <;> first | rfl | cases h

theorem sampleDomain_harmless : sampleDomain.Harmless :=
  harmless_of_byValue (List.forall_mem_singleton.mpr ⟨fun _ => pure "Transfer successful", rfl⟩)

theorem rollout_isolated_sample :
    view sampleRollouts false (Interleaving.run (rolloutsStep sampleSetup sampleRollouts)
        (initialConfig sampleWorld) sampleSchedule) =
      view sampleRollouts false (Interleaving.run (rolloutsStep sampleSetup sampleRollouts)
        (initialConfig sampleWorld) (sampleSchedule.filter (· = false))) ∧
    (view sampleRollouts false (Interleaving.run (rolloutsStep sampleSetup sampleRollouts)
        (initialConfig sampleWorld) sampleSchedule)).session.map (fun session =>
          (session.state.total_reward, session.state.num_tool_calls)) = some (1, 1) :=
  ⟨rollout_isolated sampleSetup sampleRollouts sampleRollouts_injective sampleWorld sampleWorld
    (fun _ => rfl) (fun _ => rfl) rfl sampleSchedule
    (guarded_of_harmless (fun _ => sampleDomain_harmless) sampleSchedule fun _ =>
      sampleDomain_harmless) false, by decide +kernel⟩

end Integration

end ToolAgent
