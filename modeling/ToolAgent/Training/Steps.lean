import ToolAgent.Library.Dialogue
import ToolAgent.Training.LlmJudge

/-!
# Steps of a history

What `extract_steps` returns, against the history it is given. The steps are the rounds that the
assistant opens: nothing of the history after the first assistant message is lost, and nothing goes
to another step.

The loop holds back an open step and closes it in two places, when the next one opens and at the
end. Its invariant says what is still to come: the steps closed so far, the open one with the
messages up to the next assistant message, and the steps of the rounds after that.

## Main definitions

* `historyOf` — the messages that count, which are the dictionaries
* `stepOf` — the step of one round

## Main results

* `extractSteps_eq` — the loop is a traversal of the rounds
* `extractSteps_partition` — the steps are a partition of the history
-/

namespace ToolAgent

namespace LlmJudge

open Python Dialogue

/-! ### Histories -/

/-- The items of a message, if it is a dictionary. -/
def messageItems : PyVal → Option (List (PyStr × PyVal))
  | .dict items => some items
  | _ => none

/-- The dictionary messages. -/
def historyOf (messages : List PyVal) : List (List (PyStr × PyVal)) :=
  messages.filterMap messageItems

/-- `msg.get("role") == "assistant"`. -/
def fromAssistant (items : List (PyStr × PyVal)) : Bool := dictGet items "role" = .str "assistant"

theorem fromAssistant_eq_true {items : List (PyStr × PyVal)} :
    fromAssistant items = true ↔ dictGet items "role" = .str "assistant" :=
  decide_eq_true_iff

theorem mem_historyOf {messages : List PyVal} {items : List (PyStr × PyVal)} :
    items ∈ historyOf messages ↔ PyVal.dict items ∈ messages := by
  rw [historyOf, List.mem_filterMap]
  constructor
  · rintro ⟨msg, hmsg, hitems⟩
    cases msg with
    | dict items' =>
      rw [← Option.some.inj hitems]
      exact hmsg
    | null | bool _ | int _ | float _ | str _ | list _ => cases hitems
  · exact fun hmem => ⟨_, hmem, rfl⟩

/-- `list(msg.get("tool_calls") or [])`. -/
def toolCallsOf (items : List (PyStr × PyVal)) : Except PyErr (List PyVal) :=
  ((dictGet items "tool_calls").or (.list [])).iter

/-- The step of one round: an assistant message and what follows it. -/
def stepOf (py : Interp) (round : List (PyStr × PyVal) × List (List (PyStr × PyVal))) :
    Except PyErr Step :=
  (toolCallsOf round.1).map fun calls =>
    ⟨contentText py round.1, calls, round.2.map (contentText py)⟩

/-- An open step with the messages that are still to be put into it. -/
def Step.observe (py : Interp) (step : Step) (messages : List (List (PyStr × PyVal))) : Step :=
  { step with observations := step.observations ++ messages.map (contentText py) }

section Extract

variable {py : Interp}

theorem Step.map_observe_nil (current : Option Step) :
    (current.map fun step => step.observe py []) = current := by
  cases current with
  | none => rfl
  | some step => rw [Option.map_some, Step.observe, List.map_nil, List.append_nil]

theorem Step.observe_cons (step : Step) (items : List (PyStr × PyVal))
    (messages : List (List (PyStr × PyVal))) :
    step.observe py (items :: messages) = (step.observe py [items]).observe py messages := by
  simp only [Step.observe, List.map_cons, List.map_nil, List.append_assoc, List.singleton_append]

theorem extractStep_of_assistant {items : List (PyStr × PyVal)} (h : fromAssistant items = true)
    (steps : List Step) (current : Option Step) :
    extractStep py steps current (.dict items) =
      (toolCallsOf items).map fun calls =>
        (steps ++ current.toList, some ⟨contentText py items, calls, []⟩) :=
  if_pos (fromAssistant_eq_true.mp h)

theorem extractStep_of_not {items : List (PyStr × PyVal)} (h : fromAssistant items = false)
    (steps : List Step) (current : Option Step) :
    extractStep py steps current (.dict items) =
      .ok (steps, current.map fun step => step.observe py [items]) :=
  if_neg (of_decide_eq_false h)

/-- The loop from any state, as a traversal of the rounds that are still to come. -/
theorem extractLoop_eq {messages : List PyVal} : ∀ (steps : List Step) (current : Option Step),
    extractLoop py steps current messages =
      ((roundsOf fromAssistant (historyOf messages)).mapM (stepOf py)).map fun out =>
        steps ++ (current.map fun step =>
          step.observe py (startOf fromAssistant (historyOf messages))).toList ++ out := by
  induction messages with
  | nil =>
    intro steps current
    change _ = Except.ok (steps ++ (current.map fun step => step.observe py []).toList ++ [])
    rw [extractLoop, Step.map_observe_nil, List.append_nil]
  | cons msg msgs ih =>
    intro steps current
    cases msg with
    | dict items =>
      have hhistory : historyOf (.dict items :: msgs) = items :: historyOf msgs := rfl
      rw [extractLoop, hhistory, roundsOf]
      split
      · -- the open step is closed, and the next one takes the messages up to the next assistant
        next hopens =>
        rw [extractStep_of_assistant hopens, startOf_cons_of_opens hopens, List.mapM_cons, stepOf]
        rcases toolCallsOf items with e | calls
        · rfl
        · change extractLoop py _ _ msgs = _
          rw [ih]
          rcases (roundsOf fromAssistant (historyOf msgs)).mapM (stepOf py) with e | out
          · rfl
          · have hopened : Step.observe py ⟨contentText py items, calls, []⟩
                (startOf fromAssistant (historyOf msgs)) =
                  ⟨contentText py items, calls,
                    (startOf fromAssistant (historyOf msgs)).map (contentText py)⟩ := rfl
            simp only [Except.map, Option.map_some, Option.toList_some, hopened,
              Step.map_observe_nil]
            rw [List.append_assoc _ [_], List.singleton_append]
            rfl
      · next hnot =>
        have hnot : fromAssistant items = false := Bool.eq_false_iff.mpr hnot
        rw [extractStep_of_not hnot, startOf_cons_of_not hnot, ok_bind]
        dsimp only
        rw [ih, Option.map_map]
        simp only [Function.comp_def, ← Step.observe_cons]
    | null | bool _ | int _ | float _ | str _ | list _ => exact ih steps current

/-- **Step extraction is a traversal of the rounds of the history.** -/
theorem extractSteps_eq (messages : List PyVal) :
    extractSteps py messages = (roundsOf fromAssistant (historyOf messages)).mapM (stepOf py) := by
  rw [extractSteps, extractLoop_eq]
  rcases (roundsOf fromAssistant (historyOf messages)).mapM (stepOf py) with e | out
  · rfl
  · rfl

end Extract

/-! ### The partition -/

/-- A step that records one round and nothing else. -/
structure Records (py : Interp) (round : List (PyStr × PyVal) × List (List (PyStr × PyVal)))
    (step : Step) : Prop where
  assistant : step.assistant = contentText py round.1
  tool_calls : toolCallsOf round.1 = .ok step.tool_calls
  observations : step.observations = round.2.map (contentText py)

/-- The texts of a step, in the order of the messages they come from. -/
def Step.texts (step : Step) : List PyStr := step.assistant :: step.observations

section Partition

variable {py : Interp}

theorem stepOf_eq_ok {round : List (PyStr × PyVal) × List (List (PyStr × PyVal))} {step : Step} :
    stepOf py round = .ok step ↔ Records py round step := by
  rw [stepOf, map_eq_ok]
  constructor
  · rintro ⟨calls, hcalls, rfl⟩
    exact ⟨rfl, hcalls, rfl⟩
  · rintro ⟨hassistant, hcalls, hobservations⟩
    refine ⟨step.tool_calls, hcalls, ?_⟩
    rw [← hassistant, ← hobservations]

/-- The texts of the steps of some rounds are the texts of the messages of the rounds. -/
theorem flatMap_texts {rounds : List (List (PyStr × PyVal) × List (List (PyStr × PyVal)))}
    {steps : List Step} (h : List.Forall₂ (Records py) rounds steps) :
    steps.flatMap Step.texts = (rounds.flatMap fun r => r.1 :: r.2).map (contentText py) := by
  induction h with
  | nil => rfl
  | cons hstep _ ih =>
    rw [List.flatMap_cons, List.flatMap_cons, List.map_append, ih, Step.texts, hstep.assistant,
      hstep.observations, List.map_cons]

/-- **The steps are a partition of the history.** Where the tool calls of every assistant message
can be listed, there is one step for each assistant message, the texts of the steps are those of the
messages from the first assistant message on, and every step has the texts of its own round. -/
theorem extractSteps_partition (py : Interp) (messages : List PyVal)
    (hcalls : ∀ items, PyVal.dict items ∈ messages → fromAssistant items = true →
      ∃ calls, toolCallsOf items = .ok calls) :
    ∃ steps, extractSteps py messages = .ok steps ∧
      steps.length = (historyOf messages).countP fromAssistant ∧
      steps.flatMap Step.texts =
        ((historyOf messages).dropWhile (!fromAssistant ·)).map (contentText py) ∧
      ∃ start rounds, historyOf messages = ofRounds start rounds ∧
        (∀ items ∈ start, fromAssistant items = false) ∧
        (∀ r ∈ rounds, fromAssistant r.1 = true ∧ ∀ items ∈ r.2, fromAssistant items = false) ∧
        List.Forall₂ (Records py) rounds steps := by
  obtain ⟨steps, hsteps⟩ := (extractSteps_ok_iff py messages).mpr fun items hmem hrole =>
    hcalls items hmem (fromAssistant_eq_true.mpr hrole)
  have hrecords : List.Forall₂ (Records py) (roundsOf fromAssistant (historyOf messages)) steps :=
    (mapM_eq_ok_iff_forall₂.mp ((extractSteps_eq messages).symm.trans hsteps)).imp fun _ _ =>
      stepOf_eq_ok.mp
  refine ⟨steps, hsteps, ?_, ?_, startOf fromAssistant (historyOf messages), _,
    (ofRounds_roundsOf _).symm, fun items => opens_of_mem_startOf, fun r => opens_of_mem_roundsOf,
    hrecords⟩
  · rw [← hrecords.length_eq, length_roundsOf]
  · rw [flatMap_texts hrecords, flatMap_roundsOf]

/-- A history with a message that is no dictionary, one without a role and one without a content. -/
def sampleHistory : List PyVal :=
  [.int 3, .dict [("content", .str "hello")],
    .dict [("role", .str "assistant"), ("content", .str "look"), ("tool_calls", .list [.null])],
    .null, .dict [("content", .str "found")], .dict [("role", .str "assistant")]]

theorem extractSteps_partition_sample :
    ∃ steps, extractSteps .silent sampleHistory = .ok steps ∧ steps.length = 2 ∧
      steps.flatMap Step.texts = ["look", "found", ""] := by
  have hcalls : ∀ items ∈ historyOf sampleHistory, fromAssistant items = true →
      ∃ calls, toolCallsOf items = .ok calls := by
    refine List.forall_mem_cons.mpr ⟨fun hrole => absurd hrole (by decide),
      List.forall_mem_cons.mpr ⟨fun _ => ⟨[.null], rfl⟩, List.forall_mem_cons.mpr
        ⟨fun hrole => absurd hrole (by decide), List.forall_mem_singleton.mpr fun _ => ⟨[], rfl⟩⟩⟩⟩
  obtain ⟨steps, hsteps, hlength, htexts, -⟩ :=
    extractSteps_partition .silent sampleHistory fun items hmem => hcalls items
      (mem_historyOf.mpr hmem)
  exact ⟨steps, hsteps, hlength, htexts⟩

/-- An assistant message whose tool calls are a number. -/
theorem extractSteps_raises :
    (historyOf [.dict [("role", .str "assistant"), ("tool_calls", .int 5)]]).countP
        fromAssistant = 1 ∧
      extractSteps .silent [.dict [("role", .str "assistant"), ("tool_calls", .int 5)]] =
        .error ⟨.typeError, "'int' object is not iterable"⟩ :=
  ⟨rfl, rfl⟩

end Partition

end LlmJudge

end ToolAgent
