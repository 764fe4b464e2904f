import ToolAgent.Library.Blocks
import ToolAgent.Python.RoundTrip
import ToolAgent.Rollout.Records

/-!
# The parser of tool calls

`HermesToolParser` of `verl.experimental.agent_loop.tool_parser`, the parser that the agent is
trained with. A call is a JSON object between two tags, with a name and arguments, and the parser
writes the arguments as JSON again. The loop reads them when it executes the call. What cannot be
decoded is no call.

A model that writes its calls as `json.dumps` does is understood, whatever it says before them, and
the arguments that reach a tool are those that it wrote. As the arguments have gone through the
encoder, no call of this parser is answered with a complaint about its JSON.

## Main definitions

* `HermesToolParser.extractToolCalls` — the method
* `WrittenCall`, `writtenText` — calls as they are written

## Main results

* `extractToolCalls_written` — written calls are found, with the arguments they were written with
* `Loop.hermes_calls` — in every run, what the calls of a turn are
-/

namespace ToolAgent

namespace ToolAgentLoop

open Python Prog AgentLoop

variable {σ : Type} (py : Interp)

/-! ### The parser -/

/-- Making a `FunctionCall`, which validates the name. -/
def FunctionCall.make (name : PyVal) (arguments : PyStr) : Except PyErr FunctionCall :=
  match name with
  | .str name => .ok { arguments, name }
  | _ => throw .valueError "Input should be a valid string"

namespace HermesToolParser

def toolCallStartToken : PyStr := "<tool_call>"

def toolCallEndToken : PyStr := "</tool_call>"

/-- What is tried with a match. -/
def decodeToolCall (text : PyStr) : Except PyErr FunctionCall := do
  let function_call ← loads py.recursionLimit text
  let name ← getKey function_call "name"
  let arguments ← getKey function_call "arguments"
  FunctionCall.make name (py.dumps arguments)

/-- `tool_call_regex.findall` and `tool_call_regex.sub` are about the same matches. -/
def extractToolCalls (decode : List ℤ → PyStr) (responses_ids : List ℤ) :
    PyStr × List FunctionCall :=
  let text := decode responses_ids
  if !isSubstr toolCallStartToken text || !isSubstr toolCallEndToken text then (text, [])
  else
    let matched := Blocks.split toolCallStartToken toolCallEndToken text
    let function_calls := matched.1.filterMap fun m => (decodeToolCall py m.2).toOption
    let content := matched.1.flatMap Prod.fst ++ matched.2
    (content, function_calls)

theorem plain_start : Blocks.Plain toolCallStartToken := ⟨ch '<', _, rfl, by decide⟩

theorem plain_end : Blocks.Plain toolCallEndToken := ⟨ch '<', _, rfl, by decide⟩

/-- The test for the tags does not show. -/
theorem extractToolCalls_eq (decode : List ℤ → PyStr) (ids : List ℤ) :
    extractToolCalls py decode ids =
      ((Blocks.split toolCallStartToken toolCallEndToken (decode ids)).1.flatMap Prod.fst ++
          (Blocks.split toolCallStartToken toolCallEndToken (decode ids)).2,
        (Blocks.split toolCallStartToken toolCallEndToken (decode ids)).1.filterMap
          fun m => (decodeToolCall py m.2).toOption) := by
  rw [extractToolCalls]
  split
  · next hmissing =>
    have hsplit : Blocks.split toolCallStartToken toolCallEndToken (decode ids) =
        ([], decode ids) := by
      refine (Blocks.split_eq_iff plain_start plain_end).mpr
        ⟨rfl, fun _ h => absurd h List.not_mem_nil,
        fun _ h => absurd h List.not_mem_nil, fun before s heq hoccurs => ?_⟩
      simp only [Bool.or_eq_true, Bool.not_eq_true', Bool.eq_false_iff, ne_eq,
        isSubstr_iff] at hmissing
      rcases hmissing with hstart | hend
      · exact hstart ⟨before, s, by rw [heq, List.append_assoc]⟩
      · refine hend (hoccurs.trans ?_)
        rw [heq, ← List.append_assoc]
        exact (List.suffix_append _ s).isInfix
    rw [hsplit]
    rfl
  · rfl

/-- What a decoded call is made of. -/
theorem decodeToolCall_eq_ok_iff {text : PyStr} {call : FunctionCall} :
    decodeToolCall py text = .ok call ↔
      ∃ v name arguments, loads py.recursionLimit text = .ok v ∧ getKey v "name" = .ok (.str name) ∧
        getKey v "arguments" = .ok arguments ∧
          call = { arguments := py.dumps arguments, name } := by
  constructor
  · intro h
    obtain ⟨v, hv, h⟩ := bind_eq_ok.mp h
    obtain ⟨name, hname, h⟩ := bind_eq_ok.mp h
    obtain ⟨arguments, harguments, h⟩ := bind_eq_ok.mp h
    cases name with
    | str name => exact ⟨v, name, arguments, hv, hname, harguments, (Except.ok.inj h).symm⟩
    | _ => cases h
  · rintro ⟨v, name, arguments, hv, hname, harguments, rfl⟩
    rw [decodeToolCall, hv, ok_bind, hname, ok_bind, harguments, ok_bind, FunctionCall.make]

/-! ### Written calls -/

/-- A call as a model writes it: what it says before, and a JSON object, with blanks around. -/
structure WrittenCall where
  before : PyStr
  items : List (PyStr × PyVal)
  name : PyStr
  arguments : PyVal
  blanks : PyStr × PyStr
  named : getKey (.dict items) "name" = .ok (.str name)
  given : getKey (.dict items) "arguments" = .ok arguments
  blank : (∀ c ∈ blanks.1, isWs c = true) ∧ ∀ c ∈ blanks.2, isWs c = true

namespace WrittenCall

def text (c : WrittenCall) : PyStr := c.blanks.1 ++ (py.dumps (.dict c.items) ++ c.blanks.2)

def functionCall (c : WrittenCall) : FunctionCall :=
  { arguments := py.dumps c.arguments, name := c.name }

/-- The object can be read back, and no tag stands where it would be taken for one of its own. -/
structure Fits (c : WrittenCall) : Prop where
  storable : Storable py.recursionLimit (.dict c.items)
  floats : ∀ q, HasFloat q (.dict c.items) → ReadsBack (py.floatRepr q) q
  before : ¬toolCallStartToken <:+: c.before
  text : ¬toolCallEndToken <:+: c.text py

variable {py} {c : WrittenCall}

theorem Fits.decode (h : c.Fits py) : decodeToolCall py (c.text py) = .ok (c.functionCall py) :=
  (decodeToolCall_eq_ok_iff py).mpr ⟨.dict c.items, c.name, c.arguments,
    loads_dumps h.storable h.floats c.blank.1 c.blank.2 0, c.named, c.given, rfl⟩

end WrittenCall

/-- The arguments of a call, decoded again by the loop. -/
theorem loads_arguments {py : Interp} {v arguments : PyVal} (h : Storable py.recursionLimit v)
    (hfloat : ∀ q, HasFloat q v → ReadsBack (py.floatRepr q) q)
    (harguments : getKey v "arguments" = .ok arguments) :
    loads py.recursionLimit (py.dumps arguments) = .ok arguments := by
  cases v with
  | dict items =>
    have hmem : (PyStr.ofString "arguments", arguments) ∈ items := by
      rw [getKey] at harguments
      split at harguments
      · next heq => exact mem_of_lookup (heq.trans (congrArg some (Except.ok.inj harguments)))
      · cases harguments
    refine (loads_dumps_iff (fun q hq => hfloat q (.dict hmem hq)) _ none 0).mpr ?_
    exact h.of_mem_dict hmem
  | _ => cases harguments

/-- The answer to a call that reaches no tool. -/
def unknownFunction (active_tools : List (PyStr × PyVal)) (name : PyStr) : PyStr :=
  "Unknown function '" ++ name ++ PyStr.ofString "'. Available tools: " ++
    py.repr (.list ((active_tools.map Prod.fst).map .str))

/-- Only the name of a call with arguments in JSON can be wrong. -/
theorem checkCall_of_loads {active_tools : List (PyStr × PyVal)} {call : FunctionCall}
    {args : PyVal}
    (h : loads py.recursionLimit call.arguments = .ok args) :
    checkCall py active_tools call = .ok
      (if call.name ∈ active_tools.map Prod.fst then .ok args
        else .error (unknownFunction py active_tools call.name)) := by
  rw [checkCall]
  by_cases hname : call.name ∈ active_tools.map Prod.fst
  · rw [List.contains_iff_mem.mpr hname, if_neg (by decide), if_pos hname, h]
  · rw [Bool.eq_false_iff.mpr fun hc => hname (List.contains_iff_mem.mp hc), if_pos (by decide),
      if_neg hname]
    rfl

def writtenText (calls : List WrittenCall) (rest : PyStr) : PyStr :=
  Blocks.join toolCallStartToken toolCallEndToken (calls.map fun c => (c.before, c.text py)) rest

/-- **Written calls are found**, in their order, and each reaches its tool with the arguments that
it was written with. -/
theorem extractToolCalls_written {calls : List WrittenCall} (hcalls : ∀ c ∈ calls, c.Fits py)
    {rest : PyStr}
    (hrest : ∀ before s, rest = before ++ (toolCallStartToken ++ s) → ¬toolCallEndToken <:+: s)
    {decode : List ℤ → PyStr} {ids : List ℤ} (hdecode : decode ids = writtenText py calls rest) :
    extractToolCalls py decode ids =
        (calls.flatMap WrittenCall.before ++ rest, calls.map (WrittenCall.functionCall py)) ∧
      ∀ c ∈ calls, ∀ active_tools : List (PyStr × PyVal), c.name ∈ active_tools.map Prod.fst →
        checkCall py active_tools (c.functionCall py) = .ok (.ok c.arguments) := by
  constructor
  · have hsplit : Blocks.split toolCallStartToken toolCallEndToken (decode ids) =
        (calls.map fun c => (c.before, c.text py), rest) := by
      refine (Blocks.split_eq_iff plain_start plain_end).mpr ⟨hdecode, ?_, ?_, hrest⟩
      · exact List.forall_mem_map.mpr fun c hc => (hcalls c hc).before
      · exact List.forall_mem_map.mpr fun c hc => (hcalls c hc).text
    rw [extractToolCalls_eq, hsplit, List.flatMap_map, List.filterMap_map]
    have hdecoded : ∀ c ∈ calls, (decodeToolCall py (c.text py)).toOption =
        some (c.functionCall py) := by
      intro c hc
      rw [(hcalls c hc).decode]
      rfl
    refine Prod.ext rfl ?_
    exact (List.filterMap_congr hdecoded).trans (List.filterMap_eq_map ▸ rfl)
  · intro c hc active_tools hname
    have hloads := loads_arguments (hcalls c hc).storable (hcalls c hc).floats c.given
    have hcheck : checkCall py active_tools (c.functionCall py) = _ := checkCall_of_loads py hloads
    rwa [if_pos (show (c.functionCall py).name ∈ active_tools.map Prod.fst from hname)] at hcheck

/-- An interpreter that has met one float only. -/
def sampleInterp : Interp :=
  { Interp.silent with floatRepr := fun _ => "1.5", floatRepr_printable := fun _ => by decide }

def sampleCall : WrittenCall where
  before := "Let me see."
  items := [("name", .str "lookup"), ("arguments", .dict [("price", .float (.fin (3 / 2)))])]
  name := "lookup"
  arguments := .dict [("price", .float (.fin (3 / 2)))]
  blanks := ("\n", "\n")
  named := rfl
  given := rfl
  blank := by decide

theorem sampleCall_floats {q : ℚ} (h : HasFloat q (.dict sampleCall.items)) :
    ReadsBack (sampleInterp.floatRepr q) q := by
  obtain rfl : 3 / 2 = q := by simpa [sampleCall] using h
  exact readsBack_decimal (m := 1) (List.cons_ne_nil (ch '5') []) (by decide) (by decide +kernel)

theorem sampleCall_fits : sampleCall.Fits sampleInterp where
  storable := .dict (by decide) (by
    intro kv hkv
    rcases List.mem_pair.mp hkv with rfl | rfl
    · exact .str _
    · refine .dict (by decide) fun kv hkv => ?_
      rw [List.mem_singleton.mp hkv]
      exact .float _)
  floats _ := sampleCall_floats
  before := by decide
  text := by decide

/-- `Let me see.<tool_call>` and so on: one call, and its arguments. -/
theorem extractToolCalls_sample :
    extractToolCalls sampleInterp (fun _ => writtenText sampleInterp [sampleCall] []) [] =
        (sampleCall.before ++ [], [sampleCall.functionCall sampleInterp]) ∧
      ∀ c ∈ [sampleCall], ∀ active_tools : List (PyStr × PyVal),
        c.name ∈ active_tools.map Prod.fst →
        checkCall sampleInterp active_tools (c.functionCall sampleInterp) = .ok (.ok c.arguments) :=
  extractToolCalls_written sampleInterp (List.forall_mem_singleton.mpr sampleCall_fits) (by
    intro before s h
    have hlength := congrArg List.length h
    simp [toolCallStartToken, PyStr.ofString] at hlength) rfl

end HermesToolParser

/-! ### The calls of a run -/

open HermesToolParser

variable {py} {loop : Loop σ} {start : AgentData} {decode : List ℤ → PyStr}

/-- The floats in the calls of a text are read back from what `repr` writes. -/
def FloatsReadBack (py : Interp) (text : PyStr) : Prop :=
  ∀ m ∈ (Blocks.split toolCallStartToken toolCallEndToken text).1, ∀ v,
    loads py.recursionLimit m.2 = .ok v → ∀ q, HasFloat q v → ReadsBack (py.floatRepr q) q

/-- **The calls of a turn**, in every run of a loop with this parser: each is written between two
tags in what was generated last, and reaches its tool with the arguments that are written there, if
there is a tool of its name. -/
theorem Loop.hermes_calls
    (hparser : ∀ ids tools, loop.extract_tool_calls ids tools = .ok (extractToolCalls py decode ids))
    (hfloat : ∀ ids, FloatsReadBack py (decode ids)) (hfresh : start.Fresh)
    {data : AgentData} {s s' : σ}
    (hreach : Relation.ReflTransGen (loop.Step py) (.pending, start, s) (.processing_tools, data, s')) :
    ∃ before ids, data.prompt_ids = before ++ ids ∧ ∀ call ∈ data.tool_calls, ∃ text v arguments,
      toolCallStartToken ++ text ++ toolCallEndToken <:+: decode ids ∧
        loads py.recursionLimit text = .ok v ∧ getKey v "name" = .ok (.str call.name) ∧
          getKey v "arguments" = .ok arguments ∧ checkCall py data.active_tools call = .ok
            (if call.name ∈ data.active_tools.map Prod.fst then .ok arguments
              else .error (unknownFunction py data.active_tools call.name)) := by
  obtain ⟨prompt, rounds, output, hgenerated, hrecords, -, -, content, hcontent⟩ :=
    stage_reachable hfresh hreach
  refine ⟨prompt ++ tokensOf rounds, output.token_ids, hrecords.prompt_ids, fun call hcall => ?_⟩
  rw [hparser, extractToolCalls_eq, Except.ok.injEq, Prod.mk.injEq] at hcontent
  rw [← hcontent.2] at hcall
  obtain ⟨m, hm, hdecoded⟩ := List.mem_filterMap.mp hcall
  have hok : decodeToolCall py m.2 = .ok call := by
    cases hc : decodeToolCall py m.2 with
    | error e => rw [hc] at hdecoded; cases hdecoded
    | ok c => rw [hc] at hdecoded; rw [Option.some.inj hdecoded]
  obtain ⟨v, name, arguments, hv, hname, harguments, rfl⟩ :=
    (decodeToolCall_eq_ok_iff py).mp hok
  refine ⟨m.2, v, arguments, Blocks.infix_of_mem_split hm, hv, hname, harguments, ?_⟩
  exact checkCall_of_loads py
    (loads_arguments (storable_of_loads hv) (hfloat _ m hm v hv) harguments)

/-- The first generation of the small loop calls a tool. -/
def sampleDecode (ids : List ℤ) : PyStr :=
  if ids = [7, 2] then writtenText sampleInterp [sampleCall] []
  else []

def hermesLoop : Loop ℕ :=
  { sampleLoop with
    extract_tool_calls := fun ids _ =>
      .ok (extractToolCalls sampleInterp sampleDecode ids) }

theorem split_sampleDecode :
    Blocks.split toolCallStartToken toolCallEndToken (sampleDecode [7, 2]) =
      ([(sampleCall.before, sampleCall.text sampleInterp)], []) := by
  refine (Blocks.split_eq_iff plain_start plain_end).mpr ⟨if_pos rfl,
    List.forall_mem_singleton.mpr sampleCall_fits.before,
    List.forall_mem_singleton.mpr sampleCall_fits.text, fun before s h => ?_⟩
  have hlength := congrArg List.length h
  simp [toolCallStartToken, PyStr.ofString] at hlength

theorem sampleDecode_floats (ids : List ℤ) : FloatsReadBack sampleInterp (sampleDecode ids) := by
  intro m hm v hv q hq
  by_cases hids : ids = [7, 2]
  · rw [hids, split_sampleDecode, List.mem_singleton] at hm
    rw [hm] at hv
    have hloads : loads sampleInterp.recursionLimit
        (sampleCall.text sampleInterp) =
          .ok (.dict sampleCall.items) :=
      loads_dumps sampleCall_fits.storable sampleCall_fits.floats
        sampleCall.blank.1 sampleCall.blank.2 0
    rw [← Except.ok.inj (hloads.symm.trans hv)] at hq
    exact sampleCall_floats hq
  · rw [sampleDecode, if_neg hids] at hm
    cases hm

theorem extract_sampleDecode :
    extractToolCalls sampleInterp sampleDecode [7, 2] =
      (sampleCall.before,
        [sampleCall.functionCall sampleInterp]) := by
  have hdecode := sampleCall_fits.decode
  simp only [extractToolCalls_eq, split_sampleDecode, List.flatMap_cons, List.flatMap_nil,
    List.append_nil, List.filterMap_cons, List.filterMap_nil, hdecode, Except.toOption]

/-- The data of the small loop when it has generated its first call. -/
def sampleCalled (calls : List FunctionCall) : AgentData :=
  let start := sampleLoop.start "request" sampleMessages .null []
  let prompted : AgentData := { start with prompt_ids := [9, 4, 104, 105, 2, 3, 1] }
  { prompted.generate ⟨[7, 2], some [.fin (-1), .fin 0], none, none, []⟩ [] with tool_calls := calls }

theorem sampleCalled_reached {py : Interp}
    {f : List ℤ → List PyVal → Except PyErr (PyStr × List FunctionCall)}
    {content : PyStr} {call : FunctionCall} {calls : List FunctionCall}
    (h : f [7, 2] [.null] = .ok (content, call :: calls)) :
    Relation.ReflTransGen ({ sampleLoop with extract_tool_calls := f }.Step py)
      (.pending, sampleLoop.start "request" sampleMessages .null [], 0)
      (.processing_tools, sampleCalled (call :: calls), 1) := by
  let start : AgentData := sampleLoop.start "request" sampleMessages .null []
  let prompted : AgentData := { start with prompt_ids := [9, 4, 104, 105, 2, 3, 1] }
  have hprompted : { sampleLoop with extract_tool_calls := f }.Step py
      (.pending, start, 0) (.generating, prompted, 0) := rfl
  refine .tail (.single hprompted) ?_
  change (lift (f [7, 2] [.null]) >>= fun r =>
    pure (if r.2 = [] then .terminated else .processing_tools, sampleCalled r.2) :
      Prog PyErr ℕ (AgentState × AgentData)) 1 = _
  rw [h]
  rfl

theorem hermes_calls_sample : ∃ before ids, [9, 4, 104, 105, 2, 3, 1, 7, 2] = before ++ ids ∧
    ∀ call ∈ [sampleCall.functionCall sampleInterp], ∃ text v arguments,
      toolCallStartToken ++ text ++ toolCallEndToken <:+: sampleDecode ids ∧
        loads 900 text = .ok v ∧
        getKey v "name" = .ok (.str call.name) ∧ getKey v "arguments" = .ok arguments ∧
          checkCall sampleInterp [("lookup", .null)] call = .ok
            (if call.name ∈ [PyStr.ofString "lookup"] then .ok arguments
              else .error (unknownFunction sampleInterp [("lookup", .null)] call.name)) := by
  have hparser (ids : List ℤ) (tools : List PyVal) : hermesLoop.extract_tool_calls ids tools =
      .ok (extractToolCalls sampleInterp sampleDecode ids) := rfl
  exact Loop.hermes_calls hparser sampleDecode_floats Loop.fresh_start
    (sampleCalled_reached (congrArg Except.ok extract_sampleDecode))

end ToolAgentLoop

end ToolAgent
