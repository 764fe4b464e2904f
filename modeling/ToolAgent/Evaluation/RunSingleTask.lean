import ToolAgent.Evaluation.Report
import ToolAgent.Sft.Rollout
import Mathlib.Logic.Relation

/-!
# One evaluated episode

`run_single_task` of `evaluation`: the policy and the environment take turns until the episode ends,
an exception is raised, or the turns are used up.

The policy and the environment may answer anything, and may raise at any point. Next to what the
source keeps, an episode here keeps what the accounts are about: how often the policy was called,
what it answered, and the rewards of the steps that the environment completed.

## The two ways out of the loop

An episode that ends inside a turn reports the number of that turn. All other ways out meet behind
the loop, where `max_turns` is reported: rightly when the turns are used up, and wrongly after an
exception, unless it was raised in the last turn.

## Main definitions

* `Behaviour` — what the policy and the environment answer
* `runSingleTask` — the result of an episode, with its accounts
* `Exact` — the result is true to the accounts
* `Quiet` — no turn before the last one raises

## Main results

* `runSingleTask_accounts` — tool calls, reward and success are always right
* `runSingleTask_exact_iff` — when the number of turns is
-/

namespace ToolAgent

namespace RunSingleTask

open Python Prog Policy TauBench Evaluation
open Collect (StepResult atLeastOne toolMessage)

/-! ### The outside -/

/-- What the policy and the environment answer during one episode. -/
structure Behaviour where
  /-- `env.reset(task_index)`, as a text. -/
  reset : ℤ → Except PyErr PyStr
  /-- `policy.set_tools(env.tools_info)` -/
  set_tools : Except PyErr Unit
  /-- `tau_system_prompt(env.wiki)` -/
  system_prompt : Except PyErr PyStr
  /-- The answer in a turn to the messages so far. -/
  policy : ℕ → List PyVal → Except PyErr PyVal
  /-- `env.step(Action(name, kwargs))`, after a number of completed steps. -/
  step : ℕ → PyVal → Kwargs → Except PyErr StepResult

/-! ### The episode -/

/-- The local variables of `run_single_task`, and the accounts. -/
structure State where
  messages : List PyVal
  reward : PyFloat := .fin 0
  num_tool_calls : ℕ := 0
  error : Option PyStr := none
  /-- How often the policy was called. -/
  policy_calls : ℕ := 0
  /-- What the policy answered. -/
  answers : List PyVal := []
  /-- The rewards of the completed steps. -/
  rewards : List PyFloat := []

def addMessage (message : PyVal) : Prog PyErr State Unit :=
  modify fun s => { s with messages := s.messages ++ [message] }

/-- The policy is called, and its answer becomes part of the conversation. -/
def callPolicy (b : Behaviour) (turn : ℕ) : Prog PyErr State PyVal := do
  modify fun s => { s with policy_calls := s.policy_calls + 1 }
  let s ← get
  let assistant ← lift (b.policy turn s.messages)
  modify fun s =>
    { s with messages := s.messages ++ [assistant], answers := s.answers ++ [assistant] }
  pure assistant

/-- A step of the environment that completes. -/
def envStep (b : Behaviour) (name : PyVal) (kwargs : Kwargs) : Prog PyErr State StepResult := do
  let s ← get
  let step ← lift (b.step s.rewards.length name kwargs)
  modify fun s => { s with rewards := s.rewards ++ [step.reward] }
  pure step

def setReward (reward : PyFloat) : Prog PyErr State Unit :=
  modify fun s => { s with reward := reward }

/-- Count a tool call and add the message of the tool. -/
def answerTool (tc name : PyVal) (content : PyStr) : Prog PyErr State Unit := do
  modify fun s => { s with num_tool_calls := s.num_tool_calls + 1 }
  let s ← get
  let callId ← lift (tc.get "id" (.str (PyStr.ofString "call_" ++ natRepr s.num_tool_calls)))
  addMessage (.dict (toolMessage callId name content))

/-- One tool call. The result says whether the episode is done. -/
def callTool (py : Interp) (b : Behaviour) (tc : PyVal) : Prog PyErr State Bool := do
  let function ← lift (getKey tc "function")
  let name ← lift (getKey function "name")
  let raw ← lift (function.get "arguments")
  match ToolArguments.Evaluation.parseToolArguments py raw with
  | .error parseError => do
    answerTool tc name (PyStr.ofString "Error: " ++ parseError)
    pure false
  | .ok args => do
    let step ← envStep b name args
    answerTool tc name step.observation
    setReward step.reward
    pure step.done

/-- `for tc in tool_calls`. -/
def callTools (py : Interp) (b : Behaviour) : List PyVal → Prog PyErr State Bool
  | [] => pure false
  | tc :: tcs => do
    let done ← callTool py b tc
    if done then pure true else callTools py b tcs

/-- The content of an answer without tool calls goes to the user. -/
def respond (b : Behaviour) (content : PyVal) : Prog PyErr State Bool := do
  let step ← envStep b (.str RESPOND_ACTION_NAME) [("content", content)]
  setReward step.reward
  if step.done then pure true
  else do
    addMessage (.dict (userMessage step.observation))
    pure false

/-- What follows the answer of the policy. -/
def act (py : Interp) (b : Behaviour) (assistant : PyVal) : Prog PyErr State Bool := do
  let toolCalls ← lift (assistant.get "tool_calls")
  if (toolCalls.or (.list [])).truthy then do
    let tcs ← lift (toolCalls.or (.list [])).iter
    callTools py b tcs
  else do
    let content ← lift (assistant.get "content" (.str []))
    respond b content

/-- The body of the `try`. The result says whether the episode is done. -/
def turnBody (py : Interp) (b : Behaviour) (turn : ℕ) : Prog PyErr State Bool := do
  let assistant ← callPolicy b turn
  act py b assistant

/-- How a turn ends. -/
inductive Exit where
  | goesOn
  | done
  | raised

/-- `error = ...; break`. -/
def breakWith (e : PyErr) : Prog PyErr State Exit := do
  modify fun s => { s with error := some e.describe }
  pure .raised

/-- The whole `try` statement. -/
def tryTurn (py : Interp) (b : Behaviour) (turn : ℕ) : Prog PyErr State Exit :=
  attempt (do
    let done ← turnBody py b turn
    pure (if done then .done else .goesOn)) breakWith

/-- The loop over the turns that are left, and the number of turns that is returned. -/
def turnLoop (py : Interp) (b : Behaviour) (max_turns : ℤ) : List ℕ → Prog PyErr State ℤ
  | [] => pure max_turns
  | turn :: turns => do
    match ← tryTurn py b turn with
    | .done => pure (turn + 1 : ℕ)
    | .raised => pure max_turns
    | .goesOn => turnLoop py b max_turns turns

/-- The result, and the accounts it is about. -/
structure Episode where
  result : EvalResult
  final : State

/-- What comes before the loop. -/
def start (b : Behaviour) (task_idx : ℤ) : Except PyErr State := do
  let observation ← b.reset task_idx
  b.set_tools
  let system_prompt ← b.system_prompt
  .ok { messages := [.dict (systemMessage system_prompt), .dict (userMessage observation)] }

/-- The result of an episode that ends in the state `s`. -/
def State.result (s : State) (task_idx num_turns : ℤ) : EvalResult :=
  { task_id := task_idx, sample_id := 0, success := atLeastOne s.reward, reward := s.reward
    num_turns := num_turns, num_tool_calls := s.num_tool_calls, error := s.error }

def runSingleTask (py : Interp) (b : Behaviour) (task_idx max_turns : ℤ) :
    Except PyErr Episode := do
  let s ← start b task_idx
  let (num_turns, s) := turnLoop py b max_turns (List.range max_turns.toNat) s
  let num_turns ← num_turns
  .ok ⟨s.result task_idx num_turns, s⟩

/-! ### What a result owes -/

/-- A message of a tool. -/
def isTool (message : PyVal) : Bool :=
  match message with
  | .dict items => dictGet items "role" = .str "tool"
  | _ => false

/-- The result is true to the accounts. Messages that a policy itself passes off as a tool's are no
tool messages. -/
structure Exact (episode : Episode) : Prop where
  num_turns : episode.result.num_turns = episode.final.policy_calls
  num_tool_calls : episode.result.num_tool_calls + episode.final.answers.countP isTool =
    episode.final.messages.countP isTool
  reward : episode.result.reward = episode.final.rewards.getLast?.getD (.fin 0)
  success : episode.result.success = atLeastOne episode.result.reward

/-! ### What a turn keeps -/

/-- The accounts after `n` calls of the policy. -/
structure Inv (n : ℕ) (s : State) : Prop where
  policy_calls : s.policy_calls = n
  tools : s.num_tool_calls + s.answers.countP isTool = s.messages.countP isTool
  reward : s.reward = s.rewards.getLast?.getD (.fin 0)

section Turns

variable {py : Interp} {b : Behaviour} {n : ℕ} {s : State}

/-- Only a dictionary can be indexed by a text. -/
theorem exists_dict_of_getKey {v w : PyVal} {key : PyStr} (h : getKey v key = .ok w) :
    ∃ items, v = .dict items := by
  cases v with
  | dict items => exact ⟨items, rfl⟩
  | _ => cases h

/-- After a tool call has been answered. -/
def State.answered (s : State) (message : PyVal) : State :=
  { s with num_tool_calls := s.num_tool_calls + 1, messages := s.messages ++ [message] }

/-- After the environment has completed a step. -/
def State.stepped (s : State) (reward : PyFloat) : State :=
  { s with rewards := s.rewards ++ [reward] }

/-- A tool call is counted together with its message. -/
theorem answerTool_run (items : List (PyStr × PyVal)) (name : PyVal) (content : PyStr) (s : State) :
    ∃ message, isTool message = true ∧
      answerTool (.dict items) name content s = (.ok (), s.answered message) :=
  ⟨_, by rfl, rfl⟩

/-- What follows a step of the environment, if it completes. -/
theorem envStep_bind_cases {α : Type} {P : Except PyErr α × State → Prop} {name : PyVal}
    {kwargs : Kwargs} {f : StepResult → Prog PyErr State α} (herror : ∀ e, P (.error e, s))
    (hok : ∀ step : StepResult, P (f step (s.stepped step.reward))) :
    P ((envStep b name kwargs >>= f) s) := by
  rw [bind_run, envStep, get_bind_run, bind_run]
  rcases b.step s.rewards.length name kwargs with e | step
  · exact herror e
  · exact hok step

theorem Inv.answered (h : Inv n s) {message : PyVal} (hmessage : isTool message = true) :
    (s.answered message).num_tool_calls + (s.answered message).answers.countP isTool =
      (s.answered message).messages.countP isTool := by
  have htools := h.tools
  show s.num_tool_calls + 1 + s.answers.countP isTool = (s.messages ++ [message]).countP isTool
  rw [List.countP_append, List.countP_singleton, if_pos hmessage]
  omega

theorem last_stepped (s : State) (reward : PyFloat) :
    reward = (s.stepped reward).rewards.getLast?.getD (.fin 0) := by
  rw [State.stepped, List.getLast?_concat, Option.getD_some]

theorem callTool_keeps (tc : PyVal) : Keeps (callTool py b tc) (Inv n) := by
  intro s hs
  rw [callTool]
  refine lift_bind_cases (P := fun r => Inv n r.2) (fun _ _ => hs) fun function hfunction => ?_
  obtain ⟨items, rfl⟩ := exists_dict_of_getKey hfunction
  refine lift_bind_cases (P := fun r => Inv n r.2) (fun _ _ => hs) fun name _ => ?_
  refine lift_bind_cases (P := fun r => Inv n r.2) (fun _ _ => hs) fun raw _ => ?_
  rcases ToolArguments.Evaluation.parseToolArguments py raw with parseError | args
  · obtain ⟨message, hmessage, hrun⟩ :=
      answerTool_run items name (PyStr.ofString "Error: " ++ parseError) s
    show Inv n ((answerTool _ _ _ >>= _ : Prog PyErr State Bool) s).2
    rw [bind_run_of_ok hrun]
    exact ⟨hs.policy_calls, hs.answered hmessage, hs.reward⟩
  · refine envStep_bind_cases (P := fun r => Inv n r.2) (fun _ => hs) fun step => ?_
    obtain ⟨message, hmessage, hrun⟩ :=
      answerTool_run items name step.observation (s.stepped step.reward)
    rw [bind_run_of_ok hrun]
    exact ⟨hs.policy_calls, hs.answered hmessage, last_stepped s step.reward⟩

theorem callTools_keeps (tcs : List PyVal) : Keeps (callTools py b tcs) (Inv n) := by
  induction tcs with
  | nil => exact .pure _
  | cons tc tcs ih =>
    refine .bind (callTool_keeps tc) fun done => ?_
    cases done with
    | true => exact .pure _
    | false => exact ih

/-- The policy is called once, whether it answers or raises. -/
theorem callPolicy_inv (turn : ℕ) (h : Inv n s) : Inv (n + 1) (callPolicy b turn s).2 := by
  rw [callPolicy, modify_bind_run, get_bind_run, bind_run]
  rcases b.policy turn s.messages with e | assistant
  · exact ⟨congrArg (· + 1) h.policy_calls, h.tools, h.reward⟩
  · refine ⟨congrArg (· + 1) h.policy_calls, ?_, h.reward⟩
    show s.num_tool_calls + (s.answers ++ [assistant]).countP isTool =
      (s.messages ++ [assistant]).countP isTool
    rw [List.countP_append, List.countP_append, ← h.tools, Nat.add_assoc]

theorem respond_keeps (content : PyVal) : Keeps (respond b content) (Inv n) := by
  intro s hs
  rw [respond]
  refine envStep_bind_cases (P := fun r => Inv n r.2) (fun _ => hs) fun step => ?_
  have hreward := last_stepped s step.reward
  cases hdone : step.done with
  | true => exact ⟨hs.policy_calls, hs.tools, hreward⟩
  | false =>
    refine ⟨hs.policy_calls, ?_, hreward⟩
    show _ = (s.messages ++ [PyVal.dict (userMessage step.observation)]).countP isTool
    rw [List.countP_append, ← hs.tools]
    rfl

theorem act_keeps (assistant : PyVal) : Keeps (act py b assistant) (Inv n) := by
  refine .bind (.lift _) fun toolCalls => ?_
  split
  · exact .bind (.lift _) fun tcs => callTools_keeps tcs
  · exact .bind (.lift _) fun content => respond_keeps content

/-- **One turn calls the policy once**, however it ends, and keeps the accounts. -/
theorem turnBody_inv (turn : ℕ) (h : Inv n s) : Inv (n + 1) (turnBody py b turn s).2 := by
  have hpolicy := callPolicy_inv (b := b) turn h
  rw [turnBody, bind_run]
  rcases hrun : callPolicy b turn s with ⟨e | assistant, s'⟩
  · rwa [hrun] at hpolicy
  · rw [hrun] at hpolicy
    exact act_keeps assistant s' hpolicy

/-! ### The loop -/

/-- Turn `p.1` from the state `p.2` ends with the state `q.2`, and turn `q.1` is next. -/
def GoesOn (py : Interp) (b : Behaviour) (p q : ℕ × State) : Prop :=
  q.1 = p.1 + 1 ∧ turnBody py b p.1 p.2 = (.ok false, q.2)

/-- No turn that is reached from `p` raises, unless it is the last one. -/
def Quiet (py : Interp) (b : Behaviour) (max_turns : ℤ) (p : ℕ × State) : Prop :=
  ∀ q, Relation.ReflTransGen (GoesOn py b) p q → (q.1 : ℤ) + 1 < max_turns →
    ∀ e, (turnBody py b q.1 q.2).1 ≠ .error e

variable {max_turns : ℤ} {p : ℕ × State}

theorem le_of_reached {q : ℕ × State} (h : Relation.ReflTransGen (GoesOn py b) p q) :
    p.1 ≤ q.1 := by
  induction h with
  | refl => exact le_rfl
  | tail _ hstep ih => exact ih.trans (by rw [hstep.1]; exact Nat.le_succ _)

/-- A turn that does not go on is the end. -/
theorem quiet_iff_of_ends (hends : ∀ s', turnBody py b p.1 p.2 ≠ (.ok false, s')) :
    Quiet py b max_turns p ↔
      ((p.1 : ℤ) + 1 < max_turns → ∀ e, (turnBody py b p.1 p.2).1 ≠ .error e) := by
  refine ⟨fun h => h p .refl, fun h q hq => ?_⟩
  rcases Relation.ReflTransGen.cases_head hq with rfl | ⟨c, hc, -⟩
  · exact h
  · exact absurd hc.2 (hends c.2)

/-- A turn that goes on is as quiet as the next one. -/
theorem quiet_iff_of_goesOn {s' : State} (hrun : turnBody py b p.1 p.2 = (.ok false, s')) :
    Quiet py b max_turns p ↔ Quiet py b max_turns (p.1 + 1, s') := by
  constructor
  · exact fun h q hq => h q (.head ⟨rfl, hrun⟩ hq)
  · intro h q hq
    rcases Relation.ReflTransGen.cases_head hq with rfl | ⟨c, hc, hcq⟩
    · intro _ e he
      rw [hrun] at he
      cases he
    · have hstate : c = (p.1 + 1, s') := by
        have hsnd := hc.2
        rw [hrun, Prod.mk.injEq] at hsnd
        exact Prod.ext hc.1 hsnd.2.symm
      exact h q (hstate ▸ hcq)

/-- **The number that the loop returns.** It is the number of calls exactly when no turn before the
last one raises. The rest of the accounts is kept in any case. -/
theorem turnLoop_spec : ∀ {k : ℕ} {t : ℕ} {s : State}, Inv t s → max_turns = (t + k : ℕ) →
    ∃ num_turns n s', turnLoop py b max_turns (List.range' t k) s = (.ok num_turns, s') ∧
      Inv n s' ∧ (num_turns = n ↔ Quiet py b max_turns (t, s)) := by
  intro k
  induction k with
  | zero =>
    intro t s hs hmax
    refine ⟨max_turns, t, s, rfl, hs, iff_of_true hmax fun q hq hlt => ?_⟩
    have hle : t ≤ q.1 := le_of_reached hq
    omega
  | succ k ih =>
    intro t s hs hmax
    have hbody : Inv (t + 1) (turnBody py b t s).2 := turnBody_inv t hs
    rw [List.range'_succ, turnLoop, bind_run, tryTurn, attempt, bind_run]
    rcases hrun : turnBody py b t s with ⟨e | done, s₁⟩
    · -- The exception is reported as if all turns had been used up.
      rw [hrun] at hbody
      have hends : ∀ s', turnBody py b (t, s).1 (t, s).2 ≠ (.ok false, s') := by simp [hrun]
      refine ⟨max_turns, t + 1, _, rfl, ⟨hbody.policy_calls, hbody.tools, hbody.reward⟩, ?_⟩
      rw [quiet_iff_of_ends hends, hrun, hmax]
      constructor
      · intro hlast hlt
        omega
      · intro h
        by_contra hlast
        exact h (by omega) e rfl
    · rw [hrun] at hbody
      cases done with
      | true =>
        have hends : ∀ s', turnBody py b (t, s).1 (t, s).2 ≠ (.ok false, s') := by simp [hrun]
        refine ⟨(t + 1 : ℕ), t + 1, s₁, rfl, hbody, iff_of_true rfl ?_⟩
        rw [quiet_iff_of_ends hends, hrun]
        intro _ e he
        cases he
      | false =>
        rw [quiet_iff_of_goesOn (p := (t, s)) hrun]
        exact ih hbody (by omega)

/-! ### The result -/

variable {task_idx : ℤ}

theorem inv_start (hs : start b task_idx = .ok s) : Inv 0 s := by
  obtain ⟨observation, -, hs⟩ := bind_eq_ok.mp hs
  obtain ⟨-, -, hs⟩ := bind_eq_ok.mp hs
  obtain ⟨system_prompt, -, hs⟩ := bind_eq_ok.mp hs
  rw [← Except.ok.inj hs]
  exact ⟨rfl, rfl, rfl⟩

/-- The loop of an episode. A negative number of turns is returned as it is. -/
theorem turnLoop_range (hs : Inv 0 s) : ∃ num_turns n s',
    turnLoop py b max_turns (List.range max_turns.toNat) s = (.ok num_turns, s') ∧ Inv n s' ∧
      (num_turns = n ↔ 0 ≤ max_turns ∧ Quiet py b max_turns (0, s)) := by
  by_cases hmax : 0 ≤ max_turns
  · rw [List.range_eq_range']
    have hcast : max_turns = (0 + max_turns.toNat : ℕ) := by omega
    obtain ⟨num_turns, n, s', hrun, hinv, hiff⟩ := turnLoop_spec hs hcast
    exact ⟨num_turns, n, s', hrun, hinv, by rw [hiff, and_iff_right hmax]⟩
  · rw [Int.toNat_of_nonpos (by omega)]
    refine ⟨max_turns, 0, s, rfl, hs, iff_of_false ?_ fun h => hmax h.1⟩
    omega

/-- **The accounts.** The tool calls, the reward and the success of a result are always right, and
the number of turns is if the turns are quiet. -/
theorem runSingleTask_accounts (py : Interp) (max_turns : ℤ) (hs : start b task_idx = .ok s) :
    ∃ episode, runSingleTask py b task_idx max_turns = .ok episode ∧
      episode.result.num_tool_calls + episode.final.answers.countP isTool =
        episode.final.messages.countP isTool ∧
      episode.result.reward = episode.final.rewards.getLast?.getD (.fin 0) ∧
      episode.result.success = atLeastOne episode.result.reward ∧
      (episode.result.num_turns = episode.final.policy_calls ↔
        0 ≤ max_turns ∧ Quiet py b max_turns (0, s)) := by
  obtain ⟨num_turns, n, s', hrun, hinv, hiff⟩ :
      ∃ num_turns n s', turnLoop py b max_turns (List.range max_turns.toNat) s =
        (.ok num_turns, s') ∧ _ := turnLoop_range (inv_start hs)
  refine ⟨⟨s'.result task_idx num_turns, s'⟩, ?_, ?_, hinv.reward, rfl, ?_⟩
  · rw [runSingleTask, hs]
    show (turnLoop py b max_turns (List.range max_turns.toNat) s).1.bind _ = _
    rw [hrun]
    rfl
  · show (s'.num_tool_calls : ℤ) + (s'.answers.countP isTool : ℕ) = (s'.messages.countP isTool : ℕ)
    exact_mod_cast hinv.tools
  · rw [hinv.policy_calls]
    exact hiff

/-- **When a result is exact.** Where the episode starts at all, the number of turns must not be
negative, and no turn before the last one may raise. -/
theorem runSingleTask_exact_iff (py : Interp) (b : Behaviour) (task_idx max_turns : ℤ) :
    (∀ episode, runSingleTask py b task_idx max_turns = .ok episode → Exact episode) ↔
      ∀ s, start b task_idx = .ok s → 0 ≤ max_turns ∧ Quiet py b max_turns (0, s) := by
  constructor
  · intro h s hs
    obtain ⟨episode, hrun, -, -, -, hiff⟩ := runSingleTask_accounts py max_turns hs
    exact hiff.mp (h episode hrun).num_turns
  · intro h episode hrun
    obtain ⟨s, hs, -⟩ := bind_eq_ok.mp hrun
    obtain ⟨episode', hrun', htools, hreward, hsuccess, hiff⟩ :=
      runSingleTask_accounts py max_turns hs
    obtain rfl : episode' = episode := Except.ok.inj (hrun'.symm.trans hrun)
    exact ⟨hiff.mpr (h s hs), htools, hreward, hsuccess⟩

end Turns

/-! ### A policy that cannot be reached -/

def unreachable : Behaviour where
  reset _ := .ok "Hello"
  set_tools := .ok ()
  system_prompt := .ok "The current date is 2024-05-15."
  policy _ _ := throw .urlError "connection refused"
  step _ _ _ := .ok ⟨"", .fin 0, false⟩

/-- The first call raises, and thirty turns are reported. -/
theorem runSingleTask_unreachable : ¬∀ episode,
    runSingleTask .silent unreachable 0 30 = .ok episode → Exact episode := by
  intro h
  have hrun : (runSingleTask .silent unreachable 0 30).map (fun episode =>
      (episode.result.num_turns, episode.final.policy_calls)) = .ok (30, 1) := by
    rfl
  obtain ⟨episode, hepisode, hpair⟩ := map_eq_ok.mp hrun
  rw [Prod.mk.injEq] at hpair
  have hturns := (h episode hepisode).num_turns
  rw [hpair.1, hpair.2] at hturns
  exact absurd hturns (by decide)

end RunSingleTask

end ToolAgent
