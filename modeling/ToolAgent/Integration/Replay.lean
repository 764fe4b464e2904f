import ToolAgent.Integration.Interaction

/-!
# Replay of a rollout

`start_interaction` can bring a fresh environment to where an earlier rollout stood, by replaying
its tool calls and its responses. The rollout took them through `execute` and `generate_response`,
and the replay takes all of them through `env.step`, after decoding the arguments with a function
of its own.

## Where the two differ

* Arguments that do not decode are an error that the rollout records without touching the
  environment. The replay takes the call with no arguments.
* A tool that ends the episode and is missing from the environment ends the rollout. In the replay
  it is an unknown action.
* A tool without a name is skipped by the replay.

Parameters that are a dictionary are recorded as that dictionary, not as a copy of it, and a tool
that keeps a part of its arguments in the database can write to it. The replay then takes the call
with other arguments than the rollout did, and so does the replay of the task's own actions when a
reward is computed. Hence the condition that a rollout spares what it shares.

## Main definitions

* `replayActionOf` — an operation, as it is recorded for a replay
* `Live` — an operation that a rollout takes in the ordinary way
* `Replayable` — an operation on which the two agree
* `Spares` — an operation that leaves the shared arguments as they were
* `Mirrors` — the simulation relation

## Main results

* `replayRound_mirrors` — one operation
* `replay_faithful` — a run
-/

namespace ToolAgent

namespace Integration

open Python Prog TauBench ToolArguments Runs

variable {δ υ : Type}

/-- The record of an operation, with the parameters as they came. -/
def replayActionOf : Op → ReplayAction
  | .tool name (.value v) =>
    ⟨[("kind", .str "tool"), ("tool_name", .str name), ("parameters", v)], none⟩
  | .tool name (.shared address) =>
    ⟨[("kind", .str "tool"), ("tool_name", .str name)], some address⟩
  | .respond messages => ⟨[("kind", .str "respond"), ("content", assistantContent messages)], none⟩

/-- What raises in the environment when an operation is taken. -/
def raised (py : Interp) (dom : Domain δ υ) (depth : ℕ) (env : Env δ υ) : Op → Option PyErr
  | .tool name parameters =>
    match parameters.parse py with
    | .error _ => none
    | .ok args =>
      match (executeTauToolAction py dom depth ⟨name, args⟩ env).1 with
      | .error exc => some exc
      | .ok _ => none
  | .respond messages =>
    match (step py dom depth
      ⟨RESPOND_ACTION_NAME, .own [("content", assistantContent messages)]⟩ env).1 with
    | .error exc => some exc
    | .ok _ => none

/-- A response after which there are turns left. Tool calls are not counted against the limit. -/
def TurnsLeft (max_turns : ℤ) (state : State) : Op → Prop
  | .tool _ _ => True
  | .respond _ => (state.num_user_turns + 1 + state.num_tool_calls : ℕ) < max_turns

/-- An operation of an episode that is not done, on which the environment does not raise, and which
does not reach the limit of turns. -/
structure Live (py : Interp) (dom : Domain δ υ) (depth : ℕ) (max_turns : ℤ) (inst : Instance δ υ)
    (op : Op) : Prop where
  pending : inst.state.done = false
  returns : raised py dom depth inst.env op = none
  turns_left : TurnsLeft max_turns inst.state op

/-- Parameters as they come to be replayed: a dictionary is held by the record of the call too, so it
has an address. -/
def Parameters.Recorded : Parameters → Prop
  | .value v => ∀ kvs, v ≠ .dict kvs
  | .shared _ => True

/-- An operation that is replayed as it was taken: the tool has a name, its parameters decode, and
if it ends the episode the environment has it. -/
def Replayable (py : Interp) (dom : Domain δ υ) : Op → Prop
  | .tool name parameters =>
    name ≠ [] ∧ parameters.Recorded ∧ (∃ args, parameters.parse py = .ok args) ∧
      (name ∈ dom.terminate_tools → name ≠ RESPOND_ACTION_NAME ∧
        ∃ tool, dom.tools_map.lookup name = some tool)
  | .respond _ => True

/-- An operation that leaves the arguments as they were that records, tasks and other rollouts
hold. -/
def Spares (py : Interp) (dom : Domain δ υ) (depth : ℕ) (max_turns : ℤ) (inst : Instance δ υ)
    (op : Op) : Prop :=
  (applyOp py dom depth max_turns inst op).env.shared = inst.env.shared

/-- The replay stands where the rollout stands. Once the episode is done the environment does not
matter any more. -/
structure Mirrors (live replay : Instance δ υ) : Prop where
  num_tool_calls : replay.state.num_tool_calls = live.state.num_tool_calls
  num_user_turns : replay.state.num_user_turns = live.state.num_user_turns
  total_reward : replay.state.total_reward = live.state.total_reward
  done : replay.state.done = live.state.done
  env : live.state.done = false → replay.env = live.env

section Replay

variable {py : Interp} {dom : Domain δ υ} {depth : ℕ} {max_turns : ℤ}

/-- The two decoders agree on a value that decodes. -/
theorem coerceReplayParameters_value {fields : List (PyStr × PyVal)} {v : PyVal} {kwargs : Kwargs}
    (hget : dictGet fields "parameters" = v) (h : parseToolParameters py v = .ok kwargs) :
    coerceReplayParameters py ⟨fields, none⟩ = .own kwargs := by
  rw [coerceReplayParameters, hget]
  rcases v with - | b | n | x | s | xs | items
  · exact congrArg Args.own (Except.ok.inj h)
  · cases h
  · cases h
  · cases h
  · rcases s with - | ⟨c, s⟩
    · -- the empty string stands for no arguments in both
      have hempty : parseToolParameters py (.str []) = .ok [] := by
        simp [parseToolParameters, decodeArguments, orEmptyObject, loads_empty_object]
      exact congrArg Args.own (Except.ok.inj (hempty.symm.trans h))
    · have hor : (PyVal.str (c :: s)).or (.dict []) = .str (c :: s) := rfl
      rw [hor]
      rw [parseToolParameters, decodeArguments, orEmptyObject, if_neg (List.cons_ne_nil c s)] at h
      dsimp only
      rcases hloads : loads py.recursionLimit (c :: s) with e | v
      · rw [hloads] at h
        cases h
      · rw [hloads] at h
        cases v with
        | dict items => exact congrArg Args.own (Except.ok.inj h)
        | _ => cases h
  · cases h
  · rcases items with - | ⟨item, items⟩
    · exact congrArg Args.own (Except.ok.inj h)
    · exact congrArg Args.own (Except.ok.inj h)

/-- The two decoders agree on parameters that decode. -/
theorem coerceReplayParameters_of_parse {name : PyStr} {parameters : Parameters} {args : Args}
    (h : parameters.parse py = .ok args) :
    coerceReplayParameters py (replayActionOf (.tool name parameters)) = args := by
  cases parameters with
  | value v =>
    obtain ⟨kwargs, hparse, rfl⟩ := map_eq_ok.mp h
    exact coerceReplayParameters_value rfl hparse
  | shared address => exact Except.ok.inj h

/-- **The environment's step and the wrapper of the tools** agree on reward and end, and on the
environment that is left when the episode goes on. -/
theorem step_of_executeTauToolAction {action : Action} {env env' : Env δ υ} {obs : PyStr}
    {reward : ℚ} {is_done : Bool} {data : δ}
    (hterminal : action.name ∈ dom.terminate_tools → action.name ≠ RESPOND_ACTION_NAME ∧
      ∃ tool, dom.tools_map.lookup action.name = some tool)
    (h : executeTauToolAction py dom depth action env = (.ok (obs, reward, is_done, data), env')) :
    ∃ step_res env'', step py dom depth action env = (.ok step_res, env'') ∧
      step_res.reward = reward ∧ step_res.done = is_done ∧ (is_done = false → env'' = env') := by
  by_cases hmem : action.name ∈ dom.terminate_tools
  · obtain ⟨hname, tool, htool⟩ := hterminal hmem
    rw [executeTauToolAction_terminal htool hmem, Prod.mk.injEq] at h
    obtain ⟨reward_result, hcalculate, hresult⟩ := map_eq_ok.mp h.1
    rw [Prod.mk.injEq, Prod.mk.injEq, Prod.mk.injEq] at hresult
    obtain ⟨-, rfl, rfl, -⟩ := hresult
    obtain ⟨step_res, hfinish, hreward, hdone⟩ := finishStep_done dom hcalculate
      (invokeText tool action.kwargs env.toMemory) action.name
    rw [step_terminal htool hmem hname]
    exact ⟨step_res, _, Prod.ext hfinish rfl, hreward, hdone, fun hd => by cases hd⟩
  · have hcontains : ¬dom.terminate_tools.contains action.name = true := by simpa using hmem
    rw [executeTauToolAction, if_neg hcontains] at h
    obtain ⟨step_res, env₁, hstep, h⟩ := bind_run_ok.mp h
    obtain ⟨env₂, env₃, hget, h⟩ := bind_run_ok.mp h
    rw [pure_run, Prod.mk.injEq, Except.ok.injEq, Prod.mk.injEq, Prod.mk.injEq] at h
    obtain ⟨⟨-, rfl, rfl, -⟩, rfl⟩ := h
    rw [Prog.get, Prod.mk.injEq] at hget
    exact ⟨step_res, env₁, hstep, rfl, rfl, fun _ => hget.2⟩

/-! ### One operation -/

/-- A replayed step that is credited like the live one. -/
theorem replayStep_of_step {action : Action} {inst : Instance δ υ} {env : Env δ υ}
    {step_res : EnvResponse} (h : step py dom depth action inst.env = (.ok step_res, env)) :
    replayStep py dom depth action inst =
      (.ok (), ⟨env, inst.state.credit step_res.reward step_res.done⟩) := by
  rw [replayStep, h]

theorem replayRound_tool {name : PyStr} (hname : name ≠ []) {parameters : Parameters} {args : Args}
    (hparse : parameters.parse py = .ok args) (inst : Instance δ υ) :
    replayRound py dom depth (replayActionOf (.tool name parameters)) inst =
      replayStep py dom depth ⟨name, args⟩
        { inst with state :=
            { inst.state with num_tool_calls := inst.state.num_tool_calls + 1 } } := by
  have hkind : dictGet (replayActionOf (.tool name parameters)).fields "kind" = .str "tool" := by
    cases parameters <;> rfl
  have htool : dictGet (replayActionOf (.tool name parameters)).fields "tool_name" = .str name := by
    cases parameters <;> rfl
  rw [replayRound, if_pos hkind, htool, coerceReplayParameters_of_parse hparse]
  exact if_neg (by simpa using hname)

theorem replayRound_respond (messages : List (List (PyStr × PyVal))) (inst : Instance δ υ) :
    replayRound py dom depth (replayActionOf (.respond messages)) inst =
      replayStep py dom depth
        ⟨RESPOND_ACTION_NAME, .own [("content", assistantContent messages)]⟩
        { inst with state :=
            { inst.state with num_user_turns := inst.state.num_user_turns + 1 } } := rfl

/-- A response that does not reach the limit of turns. -/
theorem generateResponse_of_step {messages : List (List (PyStr × PyVal))} {inst : Instance δ υ}
    {env : Env δ υ} {step_res : EnvResponse}
    (h : step py dom depth
      ⟨RESPOND_ACTION_NAME, .own [("content", assistantContent messages)]⟩ inst.env =
        (.ok step_res, env))
    (hpending : inst.state.done = false)
    (hturns : TurnsLeft max_turns inst.state (.respond messages)) :
    (generateResponse py dom depth max_turns messages inst).2 =
      ⟨env, { inst.state with
        total_reward := inst.state.total_reward + step_res.reward
        num_user_turns := inst.state.num_user_turns + 1
        done := false || step_res.done }⟩ := by
  have hlimit : ¬max_turns ≤
      ((inst.state.num_user_turns + 1 + inst.state.num_tool_calls : ℕ) : ℤ) := not_le.mpr hturns
  rw [generateResponse, h]
  dsimp only
  rw [if_neg hlimit, decide_eq_false hlimit, Bool.or_false, hpending, Bool.or_false, Bool.false_or]
  cases step_res.done
  · rw [if_neg Bool.false_ne_true, ← hpending]
  · rfl

/-- **One operation** is replayed as it was taken. -/
theorem replayRound_mirrors {live replay : Instance δ υ} (h : Mirrors live replay) {op : Op}
    (hlive : Live py dom depth max_turns live op) (hop : Replayable py dom op) :
    ∃ replay', replayRound py dom depth (replayActionOf op) replay = (.ok (), replay') ∧
      Mirrors (applyOp py dom depth max_turns live op) replay' := by
  have henv : replay.env = live.env := h.env hlive.pending
  rcases op with ⟨name, parameters⟩ | messages
  · obtain ⟨hname, -, ⟨args, hparse⟩, hterminal⟩ := hop
    have hreturns := hlive.returns
    rcases hrun : executeTauToolAction py dom depth ⟨name, args⟩ live.env with
      ⟨exc | ⟨obs, reward, is_done, data⟩, env⟩
    · simp [raised, hparse, hrun] at hreturns
    · obtain ⟨step_res, env', hstep, rfl, rfl, hsame⟩ :=
        step_of_executeTauToolAction hterminal hrun
      rw [← henv] at hstep
      refine ⟨_, (replayRound_tool hname hparse replay).trans (replayStep_of_step hstep), ?_⟩
      rw [applyOp, execute, hparse]
      dsimp only
      rw [hrun]
      constructor
      · exact congrArg (· + 1) h.num_tool_calls
      · exact h.num_user_turns
      · exact congrArg (· + step_res.reward) h.total_reward
      · exact congrArg (· || step_res.done) h.done
      · intro hdone
        exact hsame (Bool.or_eq_false_iff.mp hdone).2
  · have hreturns := hlive.returns
    rw [raised] at hreturns
    rcases hrun : step py dom depth
      ⟨RESPOND_ACTION_NAME, .own [("content", assistantContent messages)]⟩
        live.env with ⟨exc | step_res, env⟩
    · simp [hrun] at hreturns
    · have hstep := hrun
      rw [← henv] at hstep
      refine ⟨_, (replayRound_respond messages replay).trans (replayStep_of_step hstep), ?_⟩
      rw [applyOp, generateResponse_of_step hrun hlive.pending hlive.turns_left]
      constructor
      · exact h.num_tool_calls
      · exact congrArg (· + 1) h.num_user_turns
      · exact congrArg (· + step_res.reward) h.total_reward
      · exact congrArg (· || step_res.done) (h.done.trans hlive.pending)
      · exact fun _ => rfl

/-! ### Runs -/

/-- The loop takes over as long as the rollout goes on. -/
theorem replayLoop_mirrors {ops : List Op} :
    ∀ {live replay : Instance δ υ}, Mirrors live replay →
      Guarded (applyOp py dom depth max_turns) (Live py dom depth max_turns) live ops →
      (∀ op ∈ ops, Replayable py dom op) →
      ∃ replay', replayLoop py dom depth (ops.map replayActionOf) replay = (.ok (), replay') ∧
        Mirrors (run (applyOp py dom depth max_turns) live ops) replay' := by
  induction ops with
  | nil => exact fun h _ _ => ⟨_, rfl, h⟩
  | cons op ops ih =>
    intro live replay h hlive hops
    obtain ⟨hop, hrest⟩ := List.forall_mem_cons.mp hops
    obtain ⟨replay₁, hround, h₁⟩ := replayRound_mirrors h hlive.1 hop
    obtain ⟨replay', hloop, h'⟩ := ih h₁ hlive.2 hrest
    refine ⟨replay', ?_, h'⟩
    have hpending : replay.state.done = false := h.done.trans hlive.1.pending
    rw [List.map_cons, replayLoop, get_bind_run, hpending, if_neg Bool.false_ne_true,
      bind_run_of_ok hround]
    exact hloop

/-- A run of operations that spare the shared arguments leaves them as they were. -/
theorem run_spares {inst : Instance δ υ} {ops : List Op}
    (h : Guarded (applyOp py dom depth max_turns) (Spares py dom depth max_turns) inst ops) :
    (run (applyOp py dom depth max_turns) inst ops).env.shared = inst.env.shared := by
  have hstep : ∀ s op, s.env.shared = inst.env.shared → Spares py dom depth max_turns s op →
      (applyOp py dom depth max_turns s op).env.shared = inst.env.shared :=
    fun _ _ hs hspares => hspares.trans hs
  exact run_invariant hstep rfl h

/-- **Fidelity of the replay.** A rollout starts and takes operations in the ordinary way, each of
them is replayable, and none writes to shared arguments. Then a fresh rollout of the task that
replays them starts, and it stands where the first one stands. -/
theorem replay_faithful {bNdsrEnabled : Bool} {ident ident' : Ident} {user : υ} {shared : Shared}
    {inst : Instance δ υ}
    (hstart : startInteraction py dom depth bNdsrEnabled ident user shared [] = .ok inst)
    {ops : List Op}
    (hlive : Guarded (applyOp py dom depth max_turns) (Live py dom depth max_turns) inst ops)
    (hspares : Guarded (applyOp py dom depth max_turns) (Spares py dom depth max_turns) inst ops)
    (hops : ∀ op ∈ ops, Replayable py dom op) :
    ∃ inst', startInteraction py dom depth true ident' user
        (run (applyOp py dom depth max_turns) inst ops).env.shared (ops.map replayActionOf) =
          .ok inst' ∧
      Mirrors (run (applyOp py dom depth max_turns) inst ops) inst' := by
  rw [run_spares hspares]
  rw [startInteraction] at hstart
  rcases hreset : reset dom ⟨⟨dom.data_load, [], shared⟩, [], user⟩ with ⟨exc | observation, env⟩
  · rw [hreset] at hstart
    cases hstart
  · have hshared : env.shared = shared := congrArg (fun out => out.2.shared) hreset.symm
    rw [hreset] at hstart
    obtain rfl : (⟨env, makeInitialState ident⟩ : Instance δ υ) = inst := Except.ok.inj hstart
    have hstarted : Mirrors ⟨env, makeInitialState ident⟩ ⟨env, makeInitialState ident'⟩ :=
      ⟨rfl, rfl, rfl, rfl, fun _ => rfl⟩
    obtain ⟨inst', hloop, h'⟩ := replayLoop_mirrors hstarted hlive hops
    refine ⟨inst', ?_, h'⟩
    rw [hshared, startInteraction, hreset]
    dsimp only
    split
    · next hempty =>
      rw [List.isEmpty_iff.mp hempty] at hloop
      exact congrArg Except.ok (congrArg Prod.snd hloop)
    · rw [hloop]
      rfl

end Replay

/-- The arguments of a transfer, in a record. -/
def sampleRecord : Shared := fun _ => [("summary", .str "transfer")]

/-- The policy answers the user, and hands over with the arguments of the record. -/
def sampleOps : List Op := [.respond [], .tool "transfer_to_human_agents" (.shared 0)]

theorem replay_faithful_sample :
    ∃ inst inst', startInteraction .silent sampleDomain 9 true ⟨"instance", "trace", 0, 1⟩ ()
        sampleRecord [] = .ok inst ∧
      startInteraction .silent sampleDomain 9 true ⟨"replay", "trace", 0, 2⟩ () sampleRecord
        (sampleOps.map replayActionOf) = .ok inst' ∧
      Mirrors (run (applyOp .silent sampleDomain 9 24) inst sampleOps) inst' ∧
      (run (applyOp .silent sampleDomain 9 24) inst sampleOps).state.total_reward = 1 := by
  let inst : Instance Unit Unit :=
    ⟨⟨⟨(), [], sampleRecord⟩, [], ()⟩, makeInitialState ⟨"instance", "trace", 0, 1⟩⟩
  have hstart : startInteraction .silent sampleDomain 9 true ⟨"instance", "trace", 0, 1⟩ ()
      sampleRecord [] = .ok inst := rfl
  have hleft : ((0 + 1 + 0 : ℕ) : ℤ) < 24 := by decide
  have hlive : Guarded (applyOp .silent sampleDomain 9 24) (Live .silent sampleDomain 9 24) inst
      sampleOps :=
    ⟨⟨rfl, by decide +kernel, hleft⟩, ⟨by decide +kernel, by decide +kernel, trivial⟩, trivial⟩
  have hspares : Guarded (applyOp .silent sampleDomain 9 24) (Spares .silent sampleDomain 9 24) inst
      sampleOps := ⟨rfl, rfl, trivial⟩
  have hops : ∀ op ∈ sampleOps, Replayable .silent sampleDomain op := by
    simp only [sampleOps, List.forall_mem_cons, List.not_mem_nil, false_implies, implies_true,
      and_true]
    exact ⟨trivial, by decide, trivial, ⟨_, rfl⟩, fun _ => ⟨by decide, _, rfl⟩⟩
  obtain ⟨inst', hreplay, hmirrors⟩ := replay_faithful hstart hlive hspares hops
  exact ⟨inst, inst', hstart, hreplay, hmirrors, by decide +kernel⟩

/-- A transfer whose arguments are cut off. -/
def brokenTransfer : Op :=
  .tool "transfer_to_human_agents" (.value (.str "\x7b\"summary\": \"tra"))

/-- The rollout goes on after the broken call, and the replay hands over to a human and is
rewarded. -/
theorem replay_broken :
    startInteraction .silent sampleDomain 9 true ⟨"instance", "trace", 0, 1⟩ () (fun _ => []) [] =
      .ok sampleInstance ∧
    Guarded (applyOp .silent sampleDomain 9 24) (Live .silent sampleDomain 9 24) sampleInstance
      [brokenTransfer] ∧
    (run (applyOp .silent sampleDomain 9 24) sampleInstance [brokenTransfer]).state.done = false ∧
    (run (applyOp .silent sampleDomain 9 24) sampleInstance
      [brokenTransfer]).state.total_reward = 0 ∧
    ∃ inst', startInteraction .silent sampleDomain 9 true ⟨"replay", "trace", 0, 2⟩ ()
        (fun _ => []) ([brokenTransfer].map replayActionOf) = .ok inst' ∧
      inst'.state.done = true ∧ inst'.state.total_reward = 1 := by
  have hreplay : (startInteraction .silent sampleDomain 9 true ⟨"replay", "trace", 0, 2⟩ ()
      (fun _ => []) ([brokenTransfer].map replayActionOf)).map (fun inst =>
        (inst.state.done, inst.state.total_reward)) = .ok (true, 1) := by
    decide +kernel
  obtain ⟨inst', hstart, hpair⟩ := map_eq_ok.mp hreplay
  rw [Prod.mk.injEq] at hpair
  exact ⟨rfl, ⟨⟨rfl, by decide +kernel, trivial⟩, trivial⟩, by decide +kernel, by decide +kernel,
    inst', hstart, hpair⟩

end Integration

end ToolAgent
