import ToolAgent.Python.Builtins

/-!
# Decoding tool-call arguments

Three paths turn the `arguments` of a tool call into keyword arguments: policy evaluation, teacher
data collection and the reinforcement-learning loop. Each has its own decoder.

* Evaluation decodes once and wants an object. The empty string stands for no arguments.
* Collection decodes once more when the first pass yields a string.
* The training loop decodes in `_call_tool`, and hands the result to `parse_tool_parameters`, which
  is the evaluation decoder again. So a string is decoded twice here as well, `null` reaches the
  branch for absent arguments, and the empty string never reaches its branch.

## Main definitions

* `decodeArguments` — the decoder that evaluation and training share
* `Collection.parseToolArguments`, `callTool` — the other two paths
* `Agree` — all three execute the same call, or all three reject it

## Main results

* `agree_iff` — the strings on which the three paths agree
-/

namespace ToolAgent

namespace ToolArguments

open Python

/-- Keyword arguments, or the text of an error. -/
abbrev Parsed := Except PyStr (List (PyStr × PyVal))

/-- `value or "{}"`. -/
def orEmptyObject (value : PyStr) : PyStr := if value = [] then "\x7b\x7d" else value

def invalidJson (e : PyErr) : PyStr := "Invalid tool arguments JSON: " ++ e.msg

def notAnObject : PyStr := "Tool arguments JSON must decode to an object."

def wrongType (v : PyVal) : PyStr :=
  "Tool arguments must be a dict or JSON string, got " ++ v.typeName ++ "."

/-! ### The decoders -/

/-- What `evaluation.parse_tool_arguments` and `tools.parse_tool_parameters` both do. -/
def decodeArguments (py : Interp) : PyVal → Parsed
  | .dict items => .ok items
  | .null => .ok []
  | .str raw =>
    match loads py.recursionLimit (orEmptyObject raw) with
    | .error e => .error (invalidJson e)
    | .ok (.dict items) => .ok items
    | .ok _ => .error notAnObject
  | v => .error (wrongType v)

/-- `evaluation.parse_tool_arguments`. -/
def Evaluation.parseToolArguments (py : Interp) (raw : PyVal) : Parsed := decodeArguments py raw

/-- `tools.parse_tool_parameters`. -/
def parseToolParameters (py : Interp) (parameters : PyVal) : Parsed := decodeArguments py parameters

/-- The loop of `collect_sft_data.parse_tool_arguments`, with the passes that are left. -/
def Collection.decodeLoop (py : Interp) (value : PyStr) : ℕ → Parsed
  | 0 => .error "Tool arguments JSON is still a string after decoding."
  | passes + 1 =>
    match loads py.recursionLimit value with
    | .error e => .error (invalidJson e)
    | .ok (.dict items) => .ok items
    | .ok (.str parsed) => Collection.decodeLoop py (orEmptyObject parsed) passes
    | .ok _ => .error notAnObject

/-- `collect_sft_data.parse_tool_arguments`. -/
def Collection.parseToolArguments (py : Interp) : PyVal → Parsed
  | .dict items => .ok items
  | .null => .ok []
  | .str raw => Collection.decodeLoop py (orEmptyObject raw) 2
  | v => .error (wrongType v)

/-- `_call_tool`, from the arguments of the call to those of the tool. What `json.loads` raises
beyond `JSONDecodeError` is not caught. -/
def callTool (py : Interp) (toolName raw : PyStr) : Except PyErr Parsed :=
  match loads py.recursionLimit raw with
  | .ok toolArgs => .ok (parseToolParameters py toolArgs)
  | .error e =>
    if e.caughtBy [.jsonDecodeError, .typeError] then
      .ok (.error ("Invalid JSON in arguments for '" ++ toolName ++ "': " ++ e.msg))
    else .error e

/-! ### Agreement -/

/-- All three paths execute the call with the same arguments, or all three reject it. -/
def Agree (py : Interp) (toolName raw : PyStr) : Prop :=
  (∃ kwargs, Evaluation.parseToolArguments py (.str raw) = .ok kwargs ∧
    Collection.parseToolArguments py (.str raw) = .ok kwargs ∧
    callTool py toolName raw = .ok (.ok kwargs)) ∨
  ∃ e₁ e₂ e₃, Evaluation.parseToolArguments py (.str raw) = .error e₁ ∧
    Collection.parseToolArguments py (.str raw) = .error e₂ ∧
    callTool py toolName raw = .ok (.error e₃)

/-- What a first decoding pass may yield: a document that is not `null`, and that, if it is a
string, does not hold an object. -/
def Unambiguous (py : Interp) (v : PyVal) : Prop :=
  v ≠ .null ∧ ∀ s, v = .str s → ∀ items,
    loads py.recursionLimit (orEmptyObject s) ≠ .ok (.dict items)

theorem loads_empty_object (py : Interp) :
    loads py.recursionLimit "\x7b\x7d" = .ok (.dict []) := by
  obtain ⟨d, hd⟩ : ∃ d, py.recursionLimit = d + 1 := Nat.exists_eq_succ_of_ne_zero
    py.recursionLimit_pos.ne'
  rw [hd]
  rfl

/-- The empty string stands for no arguments, except in the training loop. -/
theorem not_agree_empty (py : Interp) (toolName : PyStr) : ¬Agree py toolName [] := by
  have heval : Evaluation.parseToolArguments py (.str []) = .ok [] := by
    rw [Evaluation.parseToolArguments, decodeArguments, orEmptyObject, if_pos rfl,
      loads_empty_object]
  have hcall : ∃ e, callTool py toolName [] = .ok (.error e) := ⟨_, rfl⟩
  obtain ⟨e, hcall⟩ := hcall
  rintro (⟨kwargs, -, -, hrl⟩ | ⟨e₁, -, -, hrej, -⟩)
  · rw [hcall] at hrl
    cases hrl
  · rw [heval] at hrej
    cases hrej

/-- A decoding error is one that `_call_tool` catches, or it aborts the training loop. -/
theorem caughtBy_iff {depth : ℕ} {s : PyStr} {e : PyErr} (h : loads depth s = .error e) :
    e.caughtBy [.jsonDecodeError, .typeError] = true ↔ e.cls = .jsonDecodeError := by
  rcases loads_error_cls h with hc | hc | hc
  · simp [PyErr.caughtBy, hc, ExcClass.isA]
  · simp [PyErr.caughtBy, hc, ExcClass.isA, ExcClass.base]
  · simp [PyErr.caughtBy, hc, ExcClass.isA, ExcClass.base]

/-- A string that decodes to a string: the training loop and collection go on to decode that one,
evaluation does not. -/
theorem agree_str_iff {py : Interp} {toolName raw s : PyStr} (hraw : raw ≠ [])
    (h : loads py.recursionLimit raw = .ok (.str s)) :
    Agree py toolName raw ↔
      ∀ items, loads py.recursionLimit (orEmptyObject s) ≠ .ok (.dict items) := by
  have heval : Evaluation.parseToolArguments py (.str raw) = .error notAnObject := by
    simp [Evaluation.parseToolArguments, decodeArguments, orEmptyObject, hraw, h]
  have hcoll : Collection.parseToolArguments py (.str raw) =
      Collection.decodeLoop py (orEmptyObject s) 1 := by
    simp [Collection.parseToolArguments, Collection.decodeLoop, orEmptyObject, hraw, h]
  have hcall : callTool py toolName raw = .ok (decodeArguments py (.str s)) := by
    simp [callTool, parseToolParameters, h]
  rw [Agree, heval, hcoll, hcall, decodeArguments, Collection.decodeLoop]
  rcases loads py.recursionLimit (orEmptyObject s) with e | v
  · simp
  · cases v <;> simp [Collection.decodeLoop]

/-- **Where the three paths agree**: on what is not JSON at all, on objects, on numbers, booleans
and arrays, and on strings that hold no object. -/
theorem agree_iff (py : Interp) (toolName raw : PyStr) :
    Agree py toolName raw ↔ raw ≠ [] ∧
      ((∃ e, loads py.recursionLimit raw = .error e ∧ e.cls = .jsonDecodeError) ∨
        ∃ v, loads py.recursionLimit raw = .ok v ∧ Unambiguous py v) := by
  by_cases hraw : raw = []
  · subst hraw
    simp [not_agree_empty]
  have hor : orEmptyObject raw = raw := if_neg hraw
  rcases h : loads py.recursionLimit raw with e | v
  · -- no JSON: every decoder rejects, unless `_call_tool` lets the exception through
    have hcls := caughtBy_iff h
    by_cases hc : e.cls = .jsonDecodeError
    · simp [Agree, Evaluation.parseToolArguments, decodeArguments, Collection.parseToolArguments,
        Collection.decodeLoop, callTool, hor, h, hcls.mpr hc, hc, hraw]
    · simp [Agree, Evaluation.parseToolArguments, decodeArguments, Collection.parseToolArguments,
        Collection.decodeLoop, callTool, hor, h, hcls.not.mpr hc, hc]
  · by_cases hstr : ∃ s, v = .str s
    · obtain ⟨s, rfl⟩ := hstr
      simp [agree_str_iff hraw h, hraw, Unambiguous]
    · cases v with
      | str s => exact absurd ⟨s, rfl⟩ hstr
      | _ => simp [Agree, Evaluation.parseToolArguments, decodeArguments, parseToolParameters,
          Collection.parseToolArguments, Collection.decodeLoop, callTool, hor, h, hraw, Unambiguous]

/-- The empty string, which only the training loop rejects, and an object encoded twice, which only
evaluation rejects. -/
theorem not_agree_examples : ¬Agree .silent "think" [] ∧
    ¬Agree .silent "think" "\"\x7b\\\"thought\\\": 1\x7d\"" := by
  have hdouble : loads Interp.silent.recursionLimit "\"\x7b\\\"thought\\\": 1\x7d\"" =
      .ok (.str "\x7b\"thought\": 1\x7d") := by
    decide +kernel
  refine ⟨not_agree_empty _ _, (agree_str_iff (by decide) hdouble).not.mpr fun h => ?_⟩
  exact h [("thought", .int 1)] (by decide +kernel)

end ToolArguments

end ToolAgent
