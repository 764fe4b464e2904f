import ToolAgent.Integration.Interaction

/-!
# The memory of a rollout

What holds of the memory when a task is loaded, and is kept by every tool, holds in every state of
every rollout. The actions of a rollout go through `Env.step`, through the wrapper of the terminal
tools and through the replay of recorded actions, and each of them may compute a reward, which
reloads the database and replays the task's own actions on it.

Some tools keep such a property only when they are called with certain arguments, for example with
arguments that nobody else holds. Then it holds in the rollouts that are given no others.

## Main definitions

* `Invariant` — a property of the memory that survives a reload and that the tools keep
* `Op.Given`, `ReplayAction.Given` — what a rollout is given: no shared arguments but these

## Main results

* `Invariant.step`, `Invariant.executeTauToolAction` — the ways to take an action
* `Invariant.start`, `Invariant.applyOp`, `Invariant.run` — rollouts
* `Invariant.of_harmless` — harmless tools leave the shared arguments as they were
-/

namespace ToolAgent

namespace Integration

open Python Prog TauBench ToolArguments Runs

variable {δ υ : Type}

/-- Arguments that are shared only at the addresses `given`. -/
def Given (given : ℕ → Prop) : Args → Prop
  | .own _ => True
  | .shared address => given address

/-- An operation whose parameters are shared only at the addresses `given`. -/
def Op.Given (given : ℕ → Prop) : Op → Prop
  | .tool _ (.shared address) => given address
  | .tool _ (.value _) | .respond _ => True

def ReplayAction.Given (given : ℕ → Prop) (replayAction : ReplayAction) : Prop :=
  ∀ address, replayAction.parameters = some address → given address

/-- A property of the memory that holds when the database is loaded or put back, and that every tool
keeps. The arguments of the task, of the records and of the calls are shared only at the addresses
`given`. -/
structure Invariant (dom : Domain δ υ) (given : ℕ → Prop) (I : Memory δ → Prop) : Prop where
  load : ∀ memory, I memory → I (memory.renew dom.data_load)
  put_back : ∀ memory post, I memory → I post → I (memory.renew post.data)
  tools : ∀ name tool, dom.tools_map.lookup name = some tool → ∀ args, Given given args →
    Keeps (tool args) I
  task : ∀ action ∈ dom.task.actions, Given given action.kwargs

/-- Harmless tools leave the shared arguments as they were. -/
theorem Invariant.of_harmless {dom : Domain δ υ} (h : dom.Harmless) (shared : Shared) :
    Invariant dom (fun _ => True) fun memory => memory.shared = shared where
  load := fun _ hmemory => hmemory
  put_back := fun _ _ hmemory _ => hmemory
  tools := fun name tool htool args _ memory hmemory =>
    (h name tool htool args memory).trans hmemory
  task := fun action _ => by
    cases action.kwargs with
    | own kwargs => trivial
    | shared address => trivial

section Parse

variable {given : ℕ → Prop} {py : Interp}

/-- Without a condition on addresses there is none on operations. -/
theorem given_all (op : Op) : op.Given fun _ => True := by
  rcases op with ⟨name, v | address⟩ | messages
  · trivial
  · trivial
  · trivial

/-- What a call is given is what its raw parameters are. -/
theorem given_of_parse {name : PyStr} {parameters : Parameters} {args : Args}
    (h : (Op.tool name parameters).Given given) (hparse : parameters.parse py = .ok args) :
    Given given args := by
  cases parameters with
  | value v =>
    obtain ⟨kwargs, -, rfl⟩ := map_eq_ok.mp hparse
    trivial
  | shared address =>
    obtain rfl := Except.ok.inj hparse
    exact h

theorem given_coerce {replayAction : ReplayAction} (h : replayAction.Given given) :
    Given given (coerceReplayParameters py replayAction) := by
  rw [coerceReplayParameters]
  split
  · next address hparameters => exact h address hparameters
  · split
    · trivial
    · split <;> trivial
    · trivial

end Parse

namespace Invariant

variable {dom : Domain δ υ} {given : ℕ → Prop} {I : Memory δ → Prop} {py : Interp} {depth : ℕ}

/-! ### One action -/

/-- A program that leaves a memory in `I` in `I`. -/
abbrev KeepsMemory (I : Memory δ → Prop) {α : Type} (m : EnvProg δ υ α) : Prop :=
  Keeps m fun env => I env.toMemory

theorem finishStep {calculate : EnvProg δ υ RewardResult} (h : KeepsMemory I calculate)
    (observation source : PyStr) (done : Bool) :
    KeepsMemory I (finishStep dom calculate observation source done) := by
  cases done with
  | true => exact h.bind fun _ => .bind .get fun _ => .pure _
  | false => exact .pure _

theorem invoke (hI : Invariant dom given I) {name : PyStr} {tool : Tool δ}
    (htool : dom.tools_map.lookup name = some tool) {args : Args} (hargs : Given given args) :
    KeepsMemory I (invoke tool args : EnvProg δ υ PyStr) :=
  .attempt (fun env henv => hI.tools name tool htool args hargs env.toMemory henv) fun _ => .pure _

theorem stepWith (hI : Invariant dom given I) {calculate : EnvProg δ υ RewardResult}
    (h : KeepsMemory I calculate) {action : Action} (hargs : Given given action.kwargs) :
    KeepsMemory I (stepWith dom calculate action) := by
  refine .bind (.modify fun _ henv => henv) fun _ => ?_
  split
  · exact .bind .get fun _ => .bind (.lift _) fun _ =>
      .bind (.zoom _ fun _ _ henv => henv) fun _ => finishStep h _ _ _
  · split
    · next tool htool => exact (hI.invoke htool hargs).bind fun _ => finishStep h _ _ _
    · exact finishStep h _ _ _

theorem getDataHash : KeepsMemory I (getDataHash dom) := .bind .get fun _ => .lift _

theorem calculateWith (hI : Invariant dom given I) {step : Action → EnvProg δ υ EnvResponse}
    (h : ∀ action, Given given action.kwargs → KeepsMemory I (step action)) :
    KeepsMemory I (calculateWith py dom step) := by
  refine getDataHash.bind fun _ => .bind (.modify fun _ henv => hI.load _ henv) fun _ => ?_
  refine .bind (.forEach _ fun action haction => ?_) fun _ => getDataHash.bind fun _ => ?_
  · split
    · exact .pure ()
    · exact (h action (hI.task action haction)).bind fun _ => .pure ()
  · split
    · exact .pure _
    · exact .bind .get fun _ => .bind (.lift _) fun _ => .pure _

theorem calculateReward (hI : Invariant dom given I) : ∀ depth : ℕ,
    KeepsMemory I (calculateReward py dom depth)
  | 0 => .raise _
  | depth + 1 => hI.calculateWith fun _ => hI.stepWith (calculateReward hI depth)

theorem step (hI : Invariant dom given I) (action : Action) (hargs : Given given action.kwargs) :
    KeepsMemory I (step py dom depth action) :=
  hI.stepWith (hI.calculateReward depth) hargs

/-- A terminal tool puts back what it has left. -/
theorem executeTauToolAction (hI : Invariant dom given I) {action : Action}
    (hargs : Given given action.kwargs) :
    KeepsMemory I (executeTauToolAction py dom depth action) := by
  rw [Integration.executeTauToolAction]
  split
  · refine .bind (.modify fun _ henv => henv) fun _ => .bind ?_ fun observation => ?_
    · rw [terminalObservation]
      split
      · next tool htool => exact hI.invoke htool hargs
      · exact .pure _
    · refine .get_bind fun post hpost => ?_
      have hreward : I (TauBench.calculateReward py dom depth post).2.toMemory :=
        hI.calculateReward depth post hpost
      rw [bind_run, ensure]
      rcases hrun : TauBench.calculateReward py dom depth post with ⟨e | r, env⟩
      · rw [hrun] at hreward
        exact hI.put_back _ _ hreward hpost
      · rw [hrun] at hreward
        exact hI.put_back _ _ hreward hpost
  · exact (hI.step action hargs).bind fun _ => .bind .get fun _ => .pure _

/-! ### Rollouts -/

variable {max_turns : ℤ} {inst : Instance δ υ}

theorem execute (hI : Invariant dom given I) {name : PyStr} {parameters : Parameters}
    (hgiven : (Op.tool name parameters).Given given) (h : I inst.env.toMemory) :
    I (execute py dom depth name parameters inst).2.env.toMemory := by
  rw [Integration.execute]
  split
  · exact h
  · next args hparse =>
    have hafter : I (Integration.executeTauToolAction py dom depth ⟨name, args⟩ inst.env).2.toMemory :=
      hI.executeTauToolAction (given_of_parse hgiven hparse) inst.env h
    rcases hrun : Integration.executeTauToolAction py dom depth ⟨name, args⟩ inst.env with
      ⟨exc | r, env⟩
    · rw [hrun] at hafter
      exact hafter
    · rw [hrun] at hafter
      exact hafter

theorem generateResponse (hI : Invariant dom given I) (messages : List (List (PyStr × PyVal)))
    (h : I inst.env.toMemory) :
    I (generateResponse py dom depth max_turns messages inst).2.env.toMemory := by
  have hafter : I (TauBench.step py dom depth
      ⟨RESPOND_ACTION_NAME, .own [("content", assistantContent messages)]⟩ inst.env).2.toMemory :=
    hI.step ⟨RESPOND_ACTION_NAME, .own _⟩ trivial inst.env h
  rw [Integration.generateResponse]
  rcases hrun : TauBench.step py dom depth
    ⟨RESPOND_ACTION_NAME, .own [("content", assistantContent messages)]⟩
      inst.env with ⟨exc | r, env⟩
  · rw [hrun] at hafter
    exact hafter
  · rw [hrun] at hafter
    dsimp only
    split_ifs
    all_goals exact hafter

theorem applyOp (hI : Invariant dom given I) {op : Op} (hgiven : op.Given given)
    (h : I inst.env.toMemory) : I (applyOp py dom depth max_turns inst op).env.toMemory := by
  cases op with
  | tool name parameters => exact hI.execute hgiven h
  | respond messages => exact hI.generateResponse messages h

/-- A program that leaves a rollout whose memory is in `I` with such a memory. -/
abbrev KeepsInstance (I : Memory δ → Prop) (m : Prog PyErr (Instance δ υ) Unit) : Prop :=
  Keeps m fun inst => I inst.env.toMemory

theorem replayStep (hI : Invariant dom given I) (action : Action)
    (hargs : Given given action.kwargs) : KeepsInstance I (replayStep py dom depth action) := by
  intro inst h
  have hafter : I (TauBench.step py dom depth action inst.env).2.toMemory :=
    hI.step action hargs inst.env h
  rw [Integration.replayStep]
  rcases hstep : TauBench.step py dom depth action inst.env with ⟨exc | r, env⟩
  · rw [hstep] at hafter
    exact hafter
  · rw [hstep] at hafter
    exact hafter

theorem replayRound (hI : Invariant dom given I) {replayAction : ReplayAction}
    (hgiven : replayAction.Given given) :
    KeepsInstance I (replayRound py dom depth replayAction) := by
  intro inst h
  rw [Integration.replayRound]
  split
  · split
    · split
      · exact h
      · exact hI.replayStep _ (given_coerce hgiven) _ h
    · exact h
  · split
    · exact hI.replayStep ⟨RESPOND_ACTION_NAME, .own _⟩ trivial _ h
    · exact h

theorem replayLoop (hI : Invariant dom given I) {replayActions : List ReplayAction}
    (hgiven : ∀ a ∈ replayActions, a.Given given) :
    KeepsInstance I (replayLoop py dom depth replayActions) := by
  induction replayActions with
  | nil => exact .pure ()
  | cons replayAction replayActions ih =>
    obtain ⟨hfirst, hrest⟩ := List.forall_mem_cons.mp hgiven
    refine .bind .get fun inst => ?_
    split
    · exact .pure ()
    · exact (hI.replayRound hfirst).bind fun _ => ih hrest

theorem reset (hI : Invariant dom given I) : KeepsMemory I (reset dom) :=
  .bind (.modify fun _ henv => hI.load _ henv) fun _ => .bind (.modify fun _ henv => henv) fun _ =>
    .zoom _ fun _ _ henv => henv

/-- A started rollout, fresh or replayed. -/
theorem start (hI : Invariant dom given I) {bNdsrEnabled : Bool} {ident : Ident} {user : υ}
    {shared : Shared} {replayActions : List ReplayAction}
    (hgiven : ∀ a ∈ replayActions, a.Given given) (hload : I ⟨dom.data_load, [], shared⟩)
    (hstart : startInteraction py dom depth bNdsrEnabled ident user shared replayActions = .ok inst) :
    I inst.env.toMemory := by
  rw [startInteraction] at hstart
  have hreset := hI.reset ⟨⟨dom.data_load, [], shared⟩, [], user⟩ hload
  rcases hrun : TauBench.reset dom ⟨⟨dom.data_load, [], shared⟩, [], user⟩ with ⟨exc | r, env⟩
  · rw [hrun] at hstart
    cases hstart
  · rw [hrun] at hstart hreset
    dsimp only at hstart
    split at hstart
    · obtain rfl := Except.ok.inj hstart
      exact hreset
    · split at hstart
      · cases hstart
      · have hloop : I (Integration.replayLoop py dom depth replayActions
            ⟨env, makeInitialState ident⟩).2.env.toMemory := hI.replayLoop hgiven _ hreset
        split at hstart
        · cases hstart
        · next hreplay =>
          rw [hreplay] at hloop
          exact Except.ok.inj hstart ▸ hloop

/-- **The invariant holds in every state of every rollout.** -/
theorem run (hI : Invariant dom given I) {bNdsrEnabled : Bool} {ident : Ident} {user : υ}
    {shared : Shared} {replayActions : List ReplayAction}
    (hgiven : ∀ a ∈ replayActions, a.Given given) (hload : I ⟨dom.data_load, [], shared⟩)
    (hstart : startInteraction py dom depth bNdsrEnabled ident user shared replayActions = .ok inst)
    {ops : List Op} (hops : ∀ op ∈ ops, op.Given given) :
    I (run (Integration.applyOp py dom depth max_turns) inst ops).env.toMemory := by
  have hinst := hI.start hgiven hload hstart
  clear hstart
  induction ops generalizing inst with
  | nil => exact hinst
  | cons op ops ih =>
    obtain ⟨hop, hrest⟩ := List.forall_mem_cons.mp hops
    exact ih hrest (hI.applyOp hop hinst)

end Invariant

end Integration

end ToolAgent
