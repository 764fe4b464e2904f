import ToolAgent.Integration.Tools
import ToolAgent.Library.Runs

/-!
# The interaction of a rollout

`toolagent.verl_integration.interaction`: a rollout is started, possibly by replaying the actions of
an earlier one, and then takes tool calls and responses in any order until its score is read.

## When a reward is credited

Both `execute` and `generate_response` add to `total_reward`, and neither asks whether the episode
is done. The agent loop asks only after all tool calls of a turn. The replay of recorded actions is
the one place that stops at a done episode.

So a reward is credited once as long as nothing that can be rewarded follows the end of the
episode, and this is what `Allowed` says.

## Main definitions

* `startInteraction`, `generateResponse`, `calculateScore` — the methods
* `Op`, `applyOp` — the operations of a rollout
* `Credited` — the invariant: a reward of `0` or `1`, and `0` until the episode is done

## Main results

* `startInteraction_credited`, `applyOp_credited` — the invariant holds at the start and is kept
* `credited_once` — in a run of allowed operations the score is `0` or `1`, and final once done
-/

namespace ToolAgent

namespace Integration

open Python Prog TauBench ToolArguments Runs

variable {δ υ : Type}

/-! ### Rewards of a state -/

structure Components where
  score : ℚ
  terminal_reward : ℚ
  dense_reward : ℚ
  reward_mode : PyStr
  loop_stop_reason : PyStr
  success : Bool

def computeTauBenchComponents (state : State) : Components :=
  ⟨state.total_reward, state.total_reward, 0, "terminal_outcome", [], 0 < state.total_reward⟩

def markMaxTurnHit (state : State) : State := { state with done := true }

/-! ### A response of the policy -/

/-- The dictionary that comes with a response. -/
inductive ResponseInfo where
  | turn (turn : ℕ) (ident : Ident)
  | score (components : Components) (num_tool_calls : ℕ) (error : Option PyStr) (ident : Ident)

structure Response where
  should_terminate : Bool
  observation : PyStr
  score : ℚ
  info : ResponseInfo

/-- The content of the last assistant message. -/
def assistantContent (messages : List (List (PyStr × PyVal))) : PyVal :=
  match messages.reverse.find? fun msg => decide (dictGet msg "role" = .str "assistant") with
  | some msg => (dictGet msg "content" (.str [])).or (.str [])
  | none => .str []

/-- The response of a rollout that is over. -/
def finalResponse (state : State) (error : Option PyStr) : Response :=
  let components := computeTauBenchComponents state
  ⟨true, [], components.score, .score components state.num_tool_calls error state.ident⟩

def generateResponse (py : Interp) (dom : Domain δ υ) (depth : ℕ) (max_turns : ℤ)
    (messages : List (List (PyStr × PyVal))) (inst : Instance δ υ) : Response × Instance δ υ :=
  let action : Action := ⟨RESPOND_ACTION_NAME, .own [("content", assistantContent messages)]⟩
  match step py dom depth action inst.env with
  | (.error exc, env) =>
    let state := { inst.state with done := true }
    (finalResponse state (some exc.describe), ⟨env, state⟩)
  | (.ok step_res, env) =>
    let state := { inst.state with
      total_reward := inst.state.total_reward + step_res.reward
      num_user_turns := inst.state.num_user_turns + 1 }
    let total_turns : ℕ := state.num_user_turns + state.num_tool_calls
    let state := if max_turns ≤ (total_turns : ℤ) then markMaxTurnHit state else state
    if step_res.done || state.done || decide (max_turns ≤ (total_turns : ℤ)) then
      let state := { state with done := true }
      (finalResponse state none, ⟨env, state⟩)
    else (⟨false, step_res.observation, 0, .turn total_turns state.ident⟩, ⟨env, state⟩)

/-- The score that `calculate_score` reports. -/
def calculateScore (inst : Instance δ υ) : ℚ := (computeTauBenchComponents inst.state).score

/-! ### The start of a rollout -/

def makeInitialState (ident : Ident) : State := ⟨ident, 0, 0, 0, false, []⟩

/-- A recorded action. The dictionary of its parameters has an address if it is held elsewhere too, as
it is when several rollouts are started with one record. -/
structure ReplayAction where
  fields : List (PyStr × PyVal)
  parameters : Option ℕ := none

def coerceReplayParameters (py : Interp) (replayAction : ReplayAction) : Args :=
  match replayAction.parameters with
  | some address => .shared address
  | none =>
    match (dictGet replayAction.fields "parameters").or (.dict []) with
    | .dict items => .own items
    | .str parameters =>
      match loads py.recursionLimit parameters with
      | .ok (.dict items) => .own items
      | _ => .own []
    | _ => .own []

/-- The end of a round of the replay: the action is taken and credited. -/
def replayStep (py : Interp) (dom : Domain δ υ) (depth : ℕ) (action : Action) :
    Prog PyErr (Instance δ υ) Unit := fun inst =>
  match step py dom depth action inst.env with
  | (.error exc, env) => (.error exc, { inst with env := env })
  | (.ok step_res, env) => (.ok (), ⟨env, inst.state.credit step_res.reward step_res.done⟩)

/-- One round of the replay of a recorded action, in an episode that is not done. -/
def replayRound (py : Interp) (dom : Domain δ υ) (depth : ℕ) (replayAction : ReplayAction) :
    Prog PyErr (Instance δ υ) Unit := fun inst =>
  if dictGet replayAction.fields "kind" = .str "tool" then
    match dictGet replayAction.fields "tool_name" with
    | .str toolName =>
      if toolName.isEmpty then (.ok (), inst)
      else
        replayStep py dom depth ⟨toolName, coerceReplayParameters py replayAction⟩
          { inst with state :=
              { inst.state with num_tool_calls := inst.state.num_tool_calls + 1 } }
    | _ => (.ok (), inst)
  else if dictGet replayAction.fields "kind" = .str "respond" then
    replayStep py dom depth
      ⟨RESPOND_ACTION_NAME, .own [("content", dictGet replayAction.fields "content" (.str []))]⟩
      { inst with state := { inst.state with num_user_turns := inst.state.num_user_turns + 1 } }
  else
    (.error ⟨.valueError, "Unknown B-NDSR replay action kind: " ++
      py.str (dictGet replayAction.fields "kind")⟩, inst)

/-- The loop of `_replay_b_ndsr_actions`. -/
def replayLoop (py : Interp) (dom : Domain δ υ) (depth : ℕ) :
    List ReplayAction → Prog PyErr (Instance δ υ) Unit
  | [] => pure ()
  | replayAction :: replayActions => do
    let inst ← get
    if inst.state.done then pure ()
    else do
      replayRound py dom depth replayAction
      replayLoop py dom depth replayActions

/-- `start_interaction`, on an environment whose user has the memory `user`. -/
def startInteraction (py : Interp) (dom : Domain δ υ) (depth : ℕ) (bNdsrEnabled : Bool)
    (ident : Ident) (user : υ) (shared : Shared) (replayActions : List ReplayAction) :
    Except PyErr (Instance δ υ) :=
  match reset dom ⟨⟨dom.data_load, [], shared⟩, [], user⟩ with
  | (.error exc, _) => .error exc
  | (.ok _, env) =>
    if replayActions.isEmpty then .ok ⟨env, makeInitialState ident⟩
    else if !bNdsrEnabled then
      throw .runtimeError "Received B-NDSR replay actions while B_NDSR_ENABLED is false."
    else
      match replayLoop py dom depth replayActions ⟨env, makeInitialState ident⟩ with
      | (.error exc, _) => .error exc
      | (.ok _, inst) => .ok inst

/-! ### Operations -/

/-- What the agent loop does to a started rollout. -/
inductive Op where
  | tool (name : PyStr) (parameters : Parameters)
  | respond (messages : List (List (PyStr × PyVal)))

/-- One operation. -/
def applyOp (py : Interp) (dom : Domain δ υ) (depth : ℕ) (max_turns : ℤ) (inst : Instance δ υ) :
    Op → Instance δ υ
  | .tool name parameters => (execute py dom depth name parameters inst).2
  | .respond messages => (generateResponse py dom depth max_turns messages inst).2

/-- An operation that cannot be rewarded: a tool call that does not decode, or one of a tool that
does not end the episode. -/
def Unrewarded (py : Interp) (dom : Domain δ υ) : Op → Prop
  | .tool name parameters =>
    ∀ args, parameters.parse py = .ok args → ¬Ending dom name
  | .respond _ => False

/-- Nothing that can be rewarded is issued once the episode is done. -/
def Allowed (py : Interp) (dom : Domain δ υ) (inst : Instance δ υ) (op : Op) : Prop :=
  inst.state.done = true → Unrewarded py dom op

/-! ### The invariant -/

/-- The reward is `0` or `1`, and `0` until the episode is done. -/
structure Credited (state : State) : Prop where
  mem : state.total_reward = 0 ∨ state.total_reward = 1
  pending : state.done = false → state.total_reward = 0

section Invariant

variable {py : Interp} {dom : Domain δ υ} {depth : ℕ} {max_turns : ℤ}

theorem makeInitialState_credited (ident : Ident) : Credited (makeInitialState ident) :=
  ⟨.inl rfl, fun _ => rfl⟩

/-- Crediting a first reward. -/
theorem Credited.credit {state : State} (h : Credited state) (hdone : state.done = false)
    {reward : ℚ} {is_done : Bool} (hmem : reward = 0 ∨ reward = 1)
    (hzero : is_done = false → reward = 0) : Credited (state.credit reward is_done) := by
  have htotal : (state.credit reward is_done).total_reward = reward := by
    rw [State.credit, h.pending hdone, zero_add]
  constructor
  · rw [htotal]
    exact hmem
  · intro hpending
    rw [State.credit, hdone, Bool.false_or] at hpending
    rw [htotal]
    exact hzero hpending

/-- The invariant reads the reward and the flag only. -/
theorem Credited.congr {state state' : State} (h : Credited state)
    (hreward : state'.total_reward = state.total_reward) (hdone : state'.done = state.done) :
    Credited state' :=
  ⟨hreward ▸ h.mem, fun hd => hreward ▸ h.pending (hdone ▸ hd)⟩

/-- Ending an episode without a reward. -/
theorem Credited.finish {state state' : State} (h : Credited state)
    (hreward : state'.total_reward = state.total_reward) (hdone : state'.done = true) :
    Credited state' :=
  ⟨hreward ▸ h.mem, fun hd => by rw [hdone] at hd; cases hd⟩

/-! ### The start -/

theorem replayStep_credited (action : Action) {inst : Instance δ υ} (h : Credited inst.state)
    (hdone : inst.state.done = false) :
    Credited (replayStep py dom depth action inst).2.state := by
  rw [replayStep]
  rcases hrun : step py dom depth action inst.env with ⟨exc | step_res, env⟩
  · exact h
  · obtain ⟨⟨hmem, hzero⟩, -⟩ := step_response depth action _ _ _ hrun
    exact h.credit hdone hmem hzero

theorem replayRound_credited (replayAction : ReplayAction) {inst : Instance δ υ}
    (h : Credited inst.state) (hdone : inst.state.done = false) :
    Credited (replayRound py dom depth replayAction inst).2.state := by
  rw [replayRound]
  split
  · split
    · split
      · exact h
      · exact replayStep_credited _ (h.congr rfl rfl) hdone
    · exact h
  · split
    · exact replayStep_credited _ (h.congr rfl rfl) hdone
    · exact h

theorem replayLoop_credited (replayActions : List ReplayAction) :
    Keeps (replayLoop py dom depth replayActions) fun inst : Instance δ υ =>
      Credited inst.state := by
  induction replayActions with
  | nil => exact .pure ()
  | cons replayAction replayActions ih =>
    refine .get_bind fun inst h => ?_
    by_cases hdone : inst.state.done = true
    · rw [if_pos hdone]
      exact h
    · rw [if_neg hdone]
      have hround : Credited (replayRound py dom depth replayAction inst).2.state :=
        replayRound_credited replayAction h (by simpa using hdone)
      rcases hrun : replayRound py dom depth replayAction inst with ⟨e | ⟨⟩, inst₁⟩
      · rw [hrun] at hround
        rw [bind_run_of_error hrun]
        exact hround
      · rw [hrun] at hround
        rw [bind_run_of_ok hrun]
        exact ih inst₁ hround

/-- **The start.** A replay, which stops at a done episode, credits at most once. -/
theorem startInteraction_credited {bNdsrEnabled : Bool} {ident : Ident} {user : υ} {shared : Shared}
    {replayActions : List ReplayAction} {inst : Instance δ υ}
    (h : startInteraction py dom depth bNdsrEnabled ident user shared replayActions = .ok inst) :
    Credited inst.state := by
  rw [startInteraction] at h
  split at h
  · cases h
  · next env _ =>
    have hstart : Credited (makeInitialState ident) := makeInitialState_credited ident
    split at h
    · rw [Except.ok.injEq] at h
      exact h ▸ hstart
    · split at h
      · cases h
      · have hloop : Credited (replayLoop py dom depth replayActions
            ⟨env, makeInitialState ident⟩).2.state := replayLoop_credited replayActions _ hstart
        split at h
        · cases h
        · next hrun =>
          rw [hrun] at hloop
          exact Except.ok.inj h ▸ hloop

/-! ### One operation -/

/-- A response, seen from the state: the step raised, or its reward is credited. -/
theorem generateResponse_cases (inst : Instance δ υ) (messages : List (List (PyStr × PyVal))) :
    let state := (generateResponse py dom depth max_turns messages inst).2.state
    (state.total_reward = inst.state.total_reward ∧ state.done = true) ∨
      ∃ reward is_done, state.total_reward = inst.state.total_reward + reward ∧
        (reward = 0 ∨ reward = 1) ∧ (is_done = false → reward = 0) ∧
        (is_done = true → state.done = true) := by
  intro state
  rcases hrun : step py dom depth
    ⟨RESPOND_ACTION_NAME, .own [("content", assistantContent messages)]⟩
      inst.env with ⟨exc | step_res, env⟩
  · exact .inl (by simp [state, generateResponse, hrun])
  · obtain ⟨⟨hmem, hzero⟩, -⟩ := step_response depth _ _ _ _ hrun
    refine .inr ⟨step_res.reward, step_res.done, ?_, hmem, hzero, fun hdone => ?_⟩
    · simp only [state, generateResponse, hrun]
      split
      · split <;> rfl
      · split <;> rfl
    · simp [state, generateResponse, hrun, hdone]

/-- **One allowed operation** keeps the invariant. -/
theorem applyOp_credited (inst : Instance δ υ) (op : Op) (h : Credited inst.state)
    (hallowed : Allowed py dom inst op) :
    Credited (applyOp py dom depth max_turns inst op).state := by
  rcases op with ⟨name, parameters⟩ | messages
  · rcases execute_cases name parameters inst with
      ⟨hreward, hdone⟩ | ⟨args, reward, is_done, hparse, hreward, hdone, hmem, hzero, hending⟩
    · exact h.congr hreward hdone
    · rcases hpending : inst.state.done with - | -
      · exact (h.credit hpending hmem hzero).congr hreward hdone
      · -- the episode is done, so the call is not of an ending action
        have hunrewarded := hallowed hpending args hparse
        have hfalse : is_done = false :=
          Bool.eq_false_of_not_eq_true fun hd => hunrewarded (hending hd)
        rw [hzero hfalse, add_zero] at hreward
        rw [hfalse, Bool.or_false] at hdone
        exact h.congr hreward hdone
  · rcases hpending : inst.state.done with - | -
    · rcases generateResponse_cases inst messages with
        ⟨hreward, hdone⟩ | ⟨reward, is_done, hreward, hmem, hzero, hdone⟩
      · exact h.finish hreward hdone
      · rw [h.pending hpending, zero_add] at hreward
        refine ⟨hreward ▸ hmem, fun hd => hreward.trans (hzero ?_)⟩
        refine Bool.eq_false_of_not_eq_true fun hdone' => ?_
        exact absurd ((hdone hdone').symm.trans hd) (by simp)
    · exact absurd (hallowed hpending) id

/-- Once the episode is done, an allowed operation leaves the reward and the flag alone. -/
theorem applyOp_frozen (inst : Instance δ υ) (op : Op) (hdone : inst.state.done = true)
    (hallowed : Allowed py dom inst op) :
    (applyOp py dom depth max_turns inst op).state.total_reward = inst.state.total_reward ∧
      (applyOp py dom depth max_turns inst op).state.done = true := by
  rcases op with ⟨name, parameters⟩ | messages
  · rcases execute_cases name parameters inst with
      ⟨hreward, hd⟩ | ⟨args, reward, is_done, hparse, hreward, hd, -, hzero, hending⟩
    · exact ⟨hreward, hd.trans hdone⟩
    · have hfalse : is_done = false :=
        Bool.eq_false_of_not_eq_true fun h => hallowed hdone args hparse (hending h)
      rw [hzero hfalse, add_zero] at hreward
      exact ⟨hreward, by rw [applyOp, hd, hdone, Bool.true_or]⟩
  · exact absurd (hallowed hdone) id

end Invariant

/-! ### Runs -/

/-- **A reward is credited at most once.** In every run of allowed operations from a started
rollout: in every state that is reached the score is `0` or `1`, and once the episode is done the
total reward stays what it is. -/
theorem credited_once {py : Interp} {dom : Domain δ υ} {depth : ℕ} {max_turns : ℤ}
    {bNdsrEnabled : Bool} {ident : Ident} {user : υ} {shared : Shared}
    {replayActions : List ReplayAction} {inst : Instance δ υ}
    (hstart : startInteraction py dom depth bNdsrEnabled ident user shared replayActions = .ok inst)
    (before after : List Op)
    (hallowed : Guarded (applyOp py dom depth max_turns) (Allowed py dom) inst (before ++ after)) :
    (calculateScore (run (applyOp py dom depth max_turns) inst before) = 0 ∨
      calculateScore (run (applyOp py dom depth max_turns) inst before) = 1) ∧
    ((run (applyOp py dom depth max_turns) inst before).state.done = true →
      (run (applyOp py dom depth max_turns) inst (before ++ after)).state.total_reward =
        (run (applyOp py dom depth max_turns) inst before).state.total_reward) := by
  obtain ⟨hbefore, hafter⟩ := Guarded.append.mp hallowed
  constructor
  · exact (run_invariant (fun s op => applyOp_credited s op) (startInteraction_credited hstart)
      hbefore).mem
  · intro hdone
    rw [run_append]
    generalize run (applyOp py dom depth max_turns) inst before = s at hafter hdone
    have hfrozen : ∀ s' op, s'.state.total_reward = s.state.total_reward ∧ s'.state.done = true →
        Allowed py dom s' op →
        (applyOp py dom depth max_turns s' op).state.total_reward = s.state.total_reward ∧
          (applyOp py dom depth max_turns s' op).state.done = true := by
      rintro s' op ⟨hreward, hd⟩ hop
      obtain ⟨hreward', hd'⟩ := applyOp_frozen s' op hd hop
      exact ⟨hreward'.trans hreward, hd'⟩
    exact (run_invariant hfrozen ⟨rfl, hdone⟩ hafter).1

/-! ### A rollout that hands over -/

def sampleInstance : Instance Unit Unit :=
  ⟨⟨⟨(), [], fun _ => []⟩, [], ()⟩, makeInitialState ⟨"instance", "trace", 0, 1⟩⟩

def transfer : Op :=
  .tool "transfer_to_human_agents" (.value (.dict [("summary", .str "transfer")]))

theorem credited_once_sample :
    (calculateScore (run (applyOp .silent sampleDomain 9 24) sampleInstance [transfer]) = 0 ∨
      calculateScore (run (applyOp .silent sampleDomain 9 24) sampleInstance [transfer]) = 1) ∧
    ((run (applyOp .silent sampleDomain 9 24) sampleInstance [transfer]).state.done = true →
      (run (applyOp .silent sampleDomain 9 24) sampleInstance
        ([transfer] ++ [.tool "think" (.value .null)])).state.total_reward =
        (run (applyOp .silent sampleDomain 9 24) sampleInstance [transfer]).state.total_reward) := by
  have hthink : ¬Ending sampleDomain "think" := by decide
  exact credited_once
    (show startInteraction .silent sampleDomain 9 false ⟨"instance", "trace", 0, 1⟩ () (fun _ => []) [] =
      .ok sampleInstance from rfl)
    [transfer] [.tool "think" (.value .null)]
    ⟨fun h => absurd h (by decide), fun _ _ _ => hthink, trivial⟩

/-- Two transfers in one turn: both are rewarded, and the score is `2`. -/
theorem credited_twice :
    startInteraction .silent sampleDomain 9 false ⟨"instance", "trace", 0, 1⟩ () (fun _ => []) [] =
      .ok sampleInstance ∧
    (run (applyOp .silent sampleDomain 9 24) sampleInstance [transfer]).state.done = true ∧
    (run (applyOp .silent sampleDomain 9 24) sampleInstance [transfer, transfer]).state.total_reward ≠
      (run (applyOp .silent sampleDomain 9 24) sampleInstance [transfer]).state.total_reward ∧
    calculateScore (run (applyOp .silent sampleDomain 9 24) sampleInstance [transfer, transfer]) =
      2 := by
  refine ⟨rfl, by decide +kernel, by decide +kernel, by decide +kernel⟩

end Integration

end ToolAgent
