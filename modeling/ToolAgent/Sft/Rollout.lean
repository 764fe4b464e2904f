import ToolAgent.Sft.Policy
import ToolAgent.TauBench.Env
import ToolAgent.ToolArguments

/-!
# Teacher rollouts

`run_teacher_rollout` of `collect_sft_data`: the teacher and the environment take turns until the
episode ends, and the trajectory notes the first turn for which the history had been cut.

The teacher, the simulated user and the environment may answer anything, and may raise. Next to what
the source keeps, a rollout here keeps the history and the request of each turn that was generated,
so that a statement can speak of what a turn was generated from.

## Main definitions

* `Behaviour` — what the outside answers, turn by turn
* `runTeacherRollout` — a trajectory, with its turns

## Main results

* `runTeacherRollout_contaminated` — the note is missing exactly when every turn was generated from
  the whole history
* `runTeacherRollout_history` — the history of a turn is where the trajectory begins
-/

namespace ToolAgent

namespace Collect

open Python Prog Policy TauBench

/-! ### The outside -/

/-- What `env.step` returns. -/
structure StepResult where
  observation : PyStr
  reward : PyFloat
  done : Bool

/-- What the outside answers during one rollout. -/
structure Behaviour where
  /-- The environment is built and reset: the system prompt and the first observation. -/
  start : Except PyErr (PyStr × PyStr)
  /-- The JSON document that the teacher's server answers to a request in a turn. -/
  teacher : ℕ → List Message → Except PyErr PyVal
  /-- `env.step(Action(name, kwargs))` in a turn. -/
  step : ℕ → PyVal → Kwargs → Except PyErr StepResult

/-- The arguments of the script that the collection reads. -/
structure Args where
  max_turns : ℤ := 30
  contamination_char_limit : ℤ := 35000
  best_of_n : ℤ := 8
  overwrite : Bool := false

/-! ### Reading the teacher's answer -/

/-- `v[0]` -/
def getFirst (v : PyVal) : Except PyErr PyVal :=
  match v with
  | .list xs => item xs 0
  | .str s => (item s 0).map fun c => .str [c]
  | .dict _ => throw .keyError "0"
  | v => .error ⟨.typeError, "'" ++ v.typeName ++ "' object is not subscriptable"⟩

/-- `v[:1]` -/
def firstOnly (v : PyVal) : Except PyErr (List PyVal) :=
  match v with
  | .list xs => .ok (xs.take 1)
  | .str s => .ok ((s.take 1).map fun c => .str [c])
  | .dict _ => throw .typeError "unhashable type: 'slice'"
  | v => .error ⟨.typeError, "'" ++ v.typeName ++ "' object is not subscriptable"⟩

/-- The end of `OpenAICompatPolicy.__call__`. -/
def readAssistant (data : PyVal) : Except PyErr Message := do
  let choices ← getKey data "choices"
  let choice ← getFirst choices
  let msg ← getKey choice "message"
  let content ← msg.get "content"
  let toolCalls ← msg.get "tool_calls"
  .ok [("role", .str "assistant"), ("content", content.or (.str [])),
    ("tool_calls", toolCalls.or (.list []))]

/-! ### The rollout -/

/-- A turn that was generated: the history at that time, and the messages of the request. -/
structure Turn where
  history : List Message
  request : List Message
  deriving DecidableEq

/-- The local variables of `run_teacher_rollout`. -/
structure State where
  messages : List Message
  reward : PyFloat := .fin 0
  error : Option PyStr := none
  num_tool_calls : ℕ := 0
  contaminated_from_turn : Option ℕ := none
  turns : List Turn := []

/-- `reward >= 1.0`. -/
def atLeastOne : PyFloat → Bool
  | .fin q => decide (1 ≤ q)
  | .inf neg => !neg
  | .nan => false

def addMessage (message : Message) : Prog PyErr State Unit :=
  modify fun s => { s with messages := s.messages ++ [message] }

def setReward (reward : PyFloat) : Prog PyErr State Unit :=
  modify fun s => { s with reward := reward }

/-- The message of a tool. -/
def toolMessage (callId name : PyVal) (content : PyStr) : Message :=
  [("role", .str "tool"), ("tool_call_id", callId), ("name", name), ("content", .str content)]

/-- The answer to a request becomes part of the history. -/
def State.answered (s : State) (turn : ℕ) (request : List Message) (truncated : Bool)
    (assistant : Message) : State :=
  { s with
    messages := s.messages ++ [assistant]
    contaminated_from_turn :=
      if truncated && s.contaminated_from_turn.isNone then some turn else s.contaminated_from_turn
    turns := s.turns ++ [⟨s.messages, request⟩] }

/-- The policy is called. -/
def generate (py : Interp) (args : Args) (b : Behaviour) (turn : ℕ) : Prog PyErr State Message := do
  let s ← get
  let (request, truncated) ←
    lift (truncateMessages py (some args.contamination_char_limit) s.messages)
  let assistant ← lift (b.teacher turn request >>= readAssistant)
  modify fun s => s.answered turn request truncated assistant
  pure assistant

/-- One tool call. The result is `terminated`. -/
def callTool (py : Interp) (b : Behaviour) (turn : ℕ) (tc : PyVal) : Prog PyErr State Bool := do
  let function ← lift (getKey tc "function")
  let name ← lift (getKey function "name")
  let raw ← lift (function.get "arguments")
  modify fun s => { s with num_tool_calls := s.num_tool_calls + 1 }
  let s ← get
  let callId ← lift (tc.get "id" (.str (PyStr.ofString "call_" ++ natRepr s.num_tool_calls)))
  match ToolArguments.Collection.parseToolArguments py raw with
  | .error parseError => do
    addMessage (toolMessage callId name (PyStr.ofString "Error: " ++ parseError))
    pure false
  | .ok kwargs => do
    let step ← lift (b.step turn name kwargs)
    addMessage (toolMessage callId name step.observation)
    setReward step.reward
    pure step.done

/-- `for tc in tool_calls[:1]`. -/
def callFirst (py : Interp) (b : Behaviour) (turn : ℕ) : List PyVal → Prog PyErr State Bool
  | [] => pure false
  | tc :: _ => callTool py b turn tc

/-- The first tool call is executed, or the content goes to the user. The result says whether the
loop is left. -/
def act (py : Interp) (b : Behaviour) (turn : ℕ) (assistant : Message) : Prog PyErr State Bool := do
  let toolCalls := (dictGet assistant "tool_calls").or (.list [])
  if toolCalls.truthy then do
    let calls ← lift (firstOnly toolCalls)
    let terminated ← callFirst py b turn calls
    let s ← get
    pure (terminated || atLeastOne s.reward)
  else do
    let content := dictGet assistant "content" (.str [])
    let step ← lift (b.step turn (.str RESPOND_ACTION_NAME) [("content", content)])
    setReward step.reward
    if step.done then pure true
    else do
      addMessage (userMessage step.observation)
      pure (atLeastOne step.reward)

/-- One round of the loop. -/
def turnBody (py : Interp) (args : Args) (b : Behaviour) (turn : ℕ) : Prog PyErr State Bool := do
  let assistant ← generate py args b turn
  act py b turn assistant

/-- `error = ...; break`. -/
def stopWith (e : PyErr) : Prog PyErr State Bool := do
  modify fun s => { s with error := some e.describe }
  pure true

/-- The loop, over the turns that are left. -/
def turnLoop (py : Interp) (args : Args) (b : Behaviour) : List ℕ → Prog PyErr State Unit
  | [] => pure ()
  | turn :: turns => do
    let stop ← attempt (turnBody py args b turn) stopWith
    if stop then pure () else turnLoop py args b turns

/-- A row of the data set. -/
structure Row where
  task_id : ℤ
  sample_idx : ℕ
  temperature : PyFloat
  success : Bool
  reward : PyFloat
  num_turns : ℕ
  num_tool_calls : ℕ
  error : Option PyStr
  was_contaminated_from_turn : Option ℕ
  messages : List Message

/-- `None` or a value. -/
def optional {α : Type} (f : α → PyVal) : Option α → PyVal
  | none => .null
  | some a => f a

def Row.toVal (row : Row) : PyVal :=
  .dict
    [("task_id", .int row.task_id), ("sample_idx", .int row.sample_idx),
      ("temperature", .float row.temperature), ("success", .bool row.success),
      ("reward", .float row.reward), ("num_turns", .int row.num_turns),
      ("num_tool_calls", .int row.num_tool_calls), ("error", optional .str row.error),
      ("was_contaminated_from_turn", optional (fun n => .int (n : ℕ)) row.was_contaminated_from_turn),
      ("messages", .list (row.messages.map .dict)),
      ("source", .str "teacher_rollout_distillation")]

/-- A trajectory, and the turns it was generated in. -/
structure Rollout where
  row : Row
  turns : List Turn

/-- A message that the teacher wrote. -/
def isAssistant (message : Message) : Bool := dictGet message "role" = .str "assistant"

def initialState (system observation : PyStr) : State :=
  { messages := [systemMessage system, userMessage observation] }

def runTeacherRollout (py : Interp) (args : Args) (b : Behaviour) (taskId : ℤ) (sampleIdx : ℕ)
    (temperature : PyFloat) : Except PyErr Rollout := do
  let (system, observation) ← b.start
  let s := (turnLoop py args b (List.range args.max_turns.toNat)
    (initialState system observation)).2
  .ok
    { row :=
        { task_id := taskId, sample_idx := sampleIdx, temperature := temperature
          success := atLeastOne s.reward, reward := s.reward
          num_turns := s.messages.countP isAssistant
          num_tool_calls := s.num_tool_calls, error := s.error
          was_contaminated_from_turn := s.contaminated_from_turn, messages := s.messages }
      turns := s.turns }

/-! ### What a rollout keeps -/

/-- The conversation starts with the system and a user message, it has an answer for each turn, the
turns were generated from what it starts with, and the note is missing exactly when no request was
cut. -/
structure Inv (system first : PyStr) (s : State) : Prop where
  conversation : ∃ rest, s.messages = systemMessage system :: userMessage first :: rest
  answers : s.messages.countP isAssistant = s.turns.length
  history : ∀ t ∈ s.turns, t.history <+: s.messages
  contaminated : s.contaminated_from_turn = none ↔ ∀ t ∈ s.turns, t.request = t.history

section Invariant

variable {py : Interp} {args : Args} {b : Behaviour} {system first : PyStr}

/-- A change that keeps the turns and adds messages of others. -/
theorem Inv.extend {s s' : State} (h : Inv system first s) {messages : List Message}
    (hmessages : s'.messages = s.messages ++ messages) (hturns : s'.turns = s.turns)
    (hcontaminated : s'.contaminated_from_turn = s.contaminated_from_turn)
    (hothers : messages.countP isAssistant = 0) : Inv system first s' where
  conversation := by
    obtain ⟨rest, hrest⟩ := h.conversation
    exact ⟨rest ++ messages, by rw [hmessages, hrest]; rfl⟩
  answers := by
    rw [hmessages, hturns, List.countP_append, hothers, h.answers, Nat.add_zero]
  history := by
    intro t ht
    rw [hturns] at ht
    rw [hmessages]
    exact (h.history t ht).trans (List.prefix_append _ _)
  contaminated := by
    rw [hcontaminated, hturns]
    exact h.contaminated

/-- A change that is not about messages. -/
theorem Inv.same {s s' : State} (h : Inv system first s) (hmessages : s'.messages = s.messages)
    (hturns : s'.turns = s.turns)
    (hcontaminated : s'.contaminated_from_turn = s.contaminated_from_turn) :
    Inv system first s' :=
  h.extend (by rw [hmessages, List.append_nil]) hturns hcontaminated rfl

theorem addMessage_keeps {message : Message} (hother : isAssistant message = false) :
    Keeps (addMessage message) (Inv system first) :=
  .modify fun _ hs => hs.extend rfl rfl rfl (by simp [hother])

theorem setReward_keeps (reward : PyFloat) : Keeps (setReward reward) (Inv system first) :=
  .modify fun _ hs => hs.same rfl rfl rfl

/-- **A generated turn** is noted if its request has been cut. -/
theorem Inv.answered {s : State} (h : Inv system first s) {turn : ℕ} {request : List Message}
    {truncated : Bool} {assistant : Message} (hassistant : isAssistant assistant = true)
    (hiff : truncated = false ↔ request = s.messages) :
    Inv system first (s.answered turn request truncated assistant) where
  conversation := by
    obtain ⟨rest, hrest⟩ := h.conversation
    exact ⟨rest ++ [assistant], by rw [State.answered, hrest]; rfl⟩
  answers := by
    rw [State.answered, List.countP_append, h.answers, List.length_append]
    simp [hassistant]
  history := by
    intro t ht
    rcases List.mem_append.mp ht with ht | ht
    · exact (h.history t ht).trans (List.prefix_append _ _)
    · rw [List.mem_singleton.mp ht]
      exact List.prefix_append _ _
  contaminated := by
    have hturns : (∀ t ∈ (s.answered turn request truncated assistant).turns,
        t.request = t.history) ↔ s.contaminated_from_turn = none ∧ truncated = false := by
      rw [State.answered, List.forall_mem_append, ← h.contaminated, List.forall_mem_singleton, hiff]
    rw [hturns, State.answered]
    rcases s.contaminated_from_turn with - | n
    · cases truncated <;> simp
    · simp

theorem readAssistant_role {data : PyVal} {assistant : Message}
    (h : readAssistant data = .ok assistant) : isAssistant assistant = true := by
  obtain ⟨choices, -, h⟩ := bind_eq_ok.mp h
  obtain ⟨choice, -, h⟩ := bind_eq_ok.mp h
  obtain ⟨msg, -, h⟩ := bind_eq_ok.mp h
  obtain ⟨content, -, h⟩ := bind_eq_ok.mp h
  obtain ⟨toolCalls, -, h⟩ := bind_eq_ok.mp h
  rw [← Except.ok.inj h]
  rfl

theorem generate_keeps (turn : ℕ) : Keeps (generate py args b turn) (Inv system first) := by
  refine .get_bind fun s hs => ?_
  rw [bind_run]
  rcases htrunc : truncateMessages py (some args.contamination_char_limit) s.messages with
    e | ⟨request, truncated⟩
  · exact hs
  have hiff : truncated = false ↔ request = s.messages := by
    obtain ⟨rest, hrest⟩ := hs.conversation
    rw [hrest] at htrunc ⊢
    exact truncateMessages_iff htrunc
  show Inv system first ((lift (b.teacher turn request >>= readAssistant) >>= _ :
    Prog PyErr State Message) s).2
  rw [bind_run]
  rcases hanswer : b.teacher turn request >>= readAssistant with e | assistant
  · exact hs
  · obtain ⟨data, -, hread⟩ := bind_eq_ok.mp hanswer
    exact hs.answered (readAssistant_role hread) hiff

theorem callTool_keeps (turn : ℕ) (tc : PyVal) :
    Keeps (callTool py b turn tc) (Inv system first) := by
  refine .bind (.lift _) fun function => .bind (.lift _) fun name => .bind (.lift _) fun raw =>
    .bind (.modify fun _ hs => hs.same rfl rfl rfl) fun _ => .bind (fun _ hs => hs) fun s =>
    .bind (.lift _) fun callId => ?_
  split
  · exact .bind (addMessage_keeps rfl) fun _ => .pure _
  · exact .bind (.lift _) fun step => .bind (addMessage_keeps rfl) fun _ =>
      .bind (setReward_keeps _) fun _ => .pure _

theorem act_keeps (turn : ℕ) (assistant : Message) :
    Keeps (act py b turn assistant) (Inv system first) := by
  rw [act]
  split
  · refine .bind (.lift _) fun calls => .bind ?_ fun terminated =>
      .bind (fun _ hs => hs) fun s => .pure _
    rcases calls with - | ⟨tc, calls⟩
    · exact .pure _
    · exact callTool_keeps turn tc
  · refine .bind (.lift _) fun step => .bind (setReward_keeps _) fun _ => ?_
    split
    · exact .pure _
    · exact .bind (addMessage_keeps rfl) fun _ => .pure _

theorem turnLoop_keeps (turns : List ℕ) : Keeps (turnLoop py args b turns) (Inv system first) := by
  induction turns with
  | nil => exact .pure _
  | cons turn turns ih =>
    have hbody : Keeps (turnBody py args b turn) (Inv system first) :=
      .bind (generate_keeps turn) fun assistant => act_keeps turn assistant
    have hstop : ∀ e, Keeps (stopWith e) (Inv system first) := fun e =>
      .bind (.modify fun _ hs => hs.same rfl rfl rfl) fun _ => .pure _
    refine .bind (.attempt hbody hstop) fun stop => ?_
    split
    · exact .pure _
    · exact ih

theorem inv_initialState : Inv system first (initialState system first) where
  conversation := ⟨[], rfl⟩
  answers := rfl
  history := by simp [initialState]
  contaminated := by simp [initialState]

variable {taskId : ℤ} {sampleIdx : ℕ} {temperature : PyFloat} {rollout : Rollout}

theorem runTeacherRollout_row
    (h : runTeacherRollout py args b taskId sampleIdx temperature = .ok rollout) :
    rollout.row.task_id = taskId ∧ rollout.row.success = atLeastOne rollout.row.reward := by
  obtain ⟨⟨system, first⟩, -, h⟩ := bind_eq_ok.mp h
  rw [← Except.ok.inj h]
  exact ⟨rfl, rfl⟩

/-- What holds of the state that a rollout ends in. -/
theorem runTeacherRollout_inv
    (h : runTeacherRollout py args b taskId sampleIdx temperature = .ok rollout) :
    ∃ system first s, Inv system first s ∧ rollout.turns = s.turns ∧
      rollout.row.messages = s.messages ∧ rollout.row.num_turns = s.messages.countP isAssistant ∧
      rollout.row.was_contaminated_from_turn = s.contaminated_from_turn := by
  obtain ⟨⟨system, first⟩, -, h⟩ := bind_eq_ok.mp h
  rw [← Except.ok.inj h]
  exact ⟨system, first, _, turnLoop_keeps _ _ inv_initialState, rfl, rfl, rfl, rfl⟩

/-- **The note is missing** exactly when every turn was generated from the whole history. -/
theorem runTeacherRollout_contaminated
    (h : runTeacherRollout py args b taskId sampleIdx temperature = .ok rollout) :
    rollout.row.was_contaminated_from_turn = none ↔
      ∀ t ∈ rollout.turns, t.request = t.history := by
  obtain ⟨system, first, s, hs, hturns, -, -, hnote⟩ := runTeacherRollout_inv h
  rw [hnote, hturns]
  exact hs.contaminated

/-- The turns are those of the trajectory: there is one for each answer, and its history is what the
trajectory begins with. -/
theorem runTeacherRollout_history
    (h : runTeacherRollout py args b taskId sampleIdx temperature = .ok rollout) :
    rollout.turns.length = rollout.row.num_turns ∧
      ∀ t ∈ rollout.turns, t.history <+: rollout.row.messages := by
  obtain ⟨system, first, s, hs, hturns, hmessages, hcount, -⟩ := runTeacherRollout_inv h
  rw [hturns, hmessages, hcount, hs.answers]
  exact ⟨rfl, hs.history⟩

end Invariant

end Collect

end ToolAgent
