import ToolAgent.Library.Templates
import ToolAgent.Rollout.Records

/-!
# Requests and conversations

The tool agent loop never renders a conversation again. It appends what the model generated, and for
the tool messages of a turn a rendering of these alone, without the system prompt that a rendering
begins with, and behind the separator that the model leaves out when it stops at the end of its
turn. System prompt and separator are found by rendering probes
(`verl.utils.tokenizer.chat_template`).

For a chat template that is framed, that comes to the same: every request that the server is sent is
the rendering of the whole conversation. The conversation has an assistant message for each
generation, whose frame the generation completes.

## Main definitions

* `Tokenizer.initializeSystemPrompt`, `Tokenizer.initializeTurnSeparator` — the probes
* `Tokenizer.Standard` — a tokenizer with a framed template and messages that end alike

## Main results

* `Tokenizer.Standard.systemPrompt`, `Tokenizer.Standard.turnSeparator` — the probes find the parts
* `Loop.request_is_rendering` — requests are renderings of conversations
-/

namespace ToolAgent

namespace ToolAgentLoop

open Python Prog AgentLoop Template

variable {σ : Type}

/-! ### The probes -/

def userMessage (content : PyVal) : PyVal := .dict [("role", .str "user"), ("content", content)]

def textParts (text : PyStr) : PyVal := .list [.dict [("type", .str "text"), ("text", .str text)]]

variable (tokenizer : Tokenizer)

/-- `initialize_system_prompt`: one empty message is rendered, and two. -/
def Tokenizer.initializeSystemPrompt : Except PyErr (List ℤ) := do
  let token1 ← tokenizer.template [userMessage (.str [])] none false
  let token2 ← tokenizer.template (List.replicate 2 (userMessage (.str []))) none false
  .ok (sliceTo token1 (-(token2.length - token1.length : ℤ)))

/-- The renderings of an empty message and of one with a letter in it. -/
def Tokenizer.separatorProbe (content : PyStr → PyVal) : Except PyErr (List ℤ × List ℤ) := do
  let empty ← tokenizer.template [userMessage (content [])] none false
  let filled ← tokenizer.template [userMessage (content "x")] none false
  .ok (empty, filled)

/-- The separator, in what two renderings have in common at their ends. -/
def separatorOf (eos_ids : List ℤ) (empty filled : List ℤ) : List ℤ :=
  let suffix := empty.drop (empty.length - trailingRun empty filled)
  if suffix = [] then []
  else (afterLast (fun id => eos_ids.contains id) suffix).getD suffix.tail

/-- `initialize_turn_separator`: the contents are texts, or lists of parts if these are rejected. -/
def Tokenizer.initializeTurnSeparator (eos_ids : List ℤ) : List ℤ :=
  match tokenizer.separatorProbe .str with
  | .ok (empty, filled) => separatorOf eos_ids empty filled
  | .error _ =>
    match tokenizer.separatorProbe textParts with
    | .ok (empty, filled) => separatorOf eos_ids empty filled
    | .error _ => []

/-! ### Standard tokenizers -/

/-- A framed template, whose user messages end with a closing token and the separator. A message is
`Valid` if the template accepts it, and `Plain` if it does not change how a conversation begins. -/
structure Tokenizer.Standard (render : Option PyVal → List PyVal → Bool → List ℤ)
    (Valid Plain : PyVal → Prop) (Joined : PyVal → PyVal → Prop) (eos_ids separator : List ℤ)
    extends Template.Framed render none Plain Joined where
  rendered : ∀ tools messages opened, messages ≠ [] → (∀ m ∈ messages, Valid m) →
    tokenizer.template messages tools opened = .ok (render tools messages opened)
  valid : ∀ m, Plain m → Valid m
  user_plain : ∀ content : PyStr, Plain (userMessage (.str content))
  user_apart : ∀ content content' : PyStr,
    ¬Joined (userMessage (.str content)) (userMessage (.str content'))
  tool_plain : ∀ m : ToolMessage, Plain m.toVal
  close : ℤ
  close_eos : close ∈ eos_ids
  closing : ∀ content : PyStr, ∃ body,
    frames [userMessage (.str content)] = body ++ close :: separator
  separator_open : ∀ id ∈ separator, id ∉ eos_ids

namespace Tokenizer.Standard

variable {tokenizer} {render : Option PyVal → List PyVal → Bool → List ℤ}
  {Valid Plain : PyVal → Prop} {Joined : PyVal → PyVal → Prop} {eos_ids separator : List ℤ}
  (T : tokenizer.Standard render Valid Plain Joined eos_ids separator)

include T

/-- Plain messages alone are the system prompt and their frames. -/
theorem template_alone {messages : List PyVal} (hne : messages ≠ []) (h : ∀ m ∈ messages, Plain m) :
    tokenizer.template messages none false = .ok (T.system ++ T.frames messages) := by
  rw [T.rendered none messages false hne fun m hm => T.valid m (h m hm), T.alone messages h]

theorem template_user (content : PyStr) :
    tokenizer.template [userMessage (.str content)] none false =
      .ok (T.system ++ T.frames [userMessage (.str content)]) :=
  T.template_alone (List.cons_ne_nil _ _) fun m hm => by
    obtain rfl := List.mem_singleton.mp hm
    exact T.user_plain content

/-- **The system prompt** is found. -/
theorem systemPrompt : tokenizer.initializeSystemPrompt = .ok T.system := by
  obtain ⟨user, huser⟩ : ∃ user, user = userMessage (.str []) := ⟨_, rfl⟩
  have hplain : ∀ m ∈ [user], Plain m := fun m hm => by
    rw [List.mem_singleton.mp hm, huser]
    exact T.user_plain []
  have hone : tokenizer.template [user] none false = .ok (T.system ++ T.frames [user]) :=
    T.template_alone (List.cons_ne_nil _ _) hplain
  have htwo : tokenizer.template (List.replicate 2 user) none false =
      .ok (T.system ++ T.frames [user] ++ T.frames [user]) := by
    have happend := T.appended none [user] [user] (List.cons_ne_nil _ _) hplain fun x hx y hy => by
      obtain rfl := Option.some.inj hx
      obtain rfl := Option.some.inj hy
      rw [huser]
      exact T.user_apart [] []
    rw [T.alone [user] hplain] at happend
    rw [T.rendered none _ false (by simp) fun m hm => ?_, ← happend]
    · rfl
    · rw [List.eq_of_mem_replicate hm, huser]
      exact T.valid _ (T.user_plain [])
  obtain ⟨body, hbody⟩ := T.closing []
  have hpos : 0 < (T.frames [user]).length := by
    rw [huser, hbody]
    simp
  have hmore : ((T.system ++ T.frames [user] ++ T.frames [user]).length : ℤ) -
      (T.system ++ T.frames [user]).length = (T.frames [user]).length := by
    simp only [List.length_append]
    omega
  rw [initializeSystemPrompt, ← huser, hone, ok_bind, htwo, ok_bind, hmore, sliceTo,
    if_neg (by omega), neg_neg, Int.toNat_natCast, List.length_append, Nat.add_sub_cancel,
    List.take_left]

/-- **The separator** is found. -/
theorem turnSeparator : tokenizer.initializeTurnSeparator eos_ids = separator := by
  obtain ⟨empty, hempty⟩ := T.closing []
  obtain ⟨filled, hfilled⟩ := T.closing "x"
  have hprobe : tokenizer.separatorProbe .str = .ok (T.system ++ empty ++ T.close :: separator,
      T.system ++ filled ++ T.close :: separator) := by
    rw [separatorProbe, T.template_user [], ok_bind, T.template_user "x", ok_bind, hempty, hfilled,
      List.append_assoc, List.append_assoc]
  obtain ⟨more, hmore⟩ := exists_drop_trailingRun (T.system ++ empty) (T.system ++ filled)
    (T.close :: separator)
  have hlast : afterLast (fun id => eos_ids.contains id) (more ++ T.close :: separator) =
      some separator := by
    refine afterLast_append more (by simpa using T.close_eos) fun id hid => ?_
    simpa using T.separator_open id hid
  rw [initializeTurnSeparator, hprobe]
  dsimp only
  rw [separatorOf, hmore, if_neg (by simp), hlast, Option.getD_some]

end Tokenizer.Standard

/-! ### Requests -/

/-- The exchange that a round adds to the conversation, with the message for what was generated. -/
def Round.exchange (assistant : List ℤ → PyVal) (r : Round) : Exchange PyVal ℤ :=
  ⟨assistant r.output.token_ids, r.output.token_ids, r.messages.map ToolMessage.toVal⟩

/-- The loop has been set up for its tokenizer, nothing that is rendered exceeds the length of a
prompt, and what calls a tool is, up to the separator, the frame of a message, which nothing is
joined with. -/
structure Loop.Canonical (py : Interp) (loop : Loop σ) (start : AgentData)
    (assistant : List ℤ → PyVal)
    {render : Option PyVal → List PyVal → Bool → List ℤ} {Valid Plain : PyVal → Prop}
    {Joined : PyVal → PyVal → Prop} {eos_ids separator : List ℤ}
    (T : loop.tokenizer.Standard render Valid Plain Joined eos_ids separator) : Prop where
  system_prompt : loop.tokenizer.initializeSystemPrompt = .ok loop.system_prompt
  turn_separator : loop.turn_separator = loop.tokenizer.initializeTurnSeparator eos_ids
  format : loop.tool_parser_name ≠ "gpt-oss" ∧ loop.tool_parser_name ≠ "gemma4"
  calls : 0 < loop.max_parallel_calls
  messages : start.messages ≠ [] ∧ ∀ m ∈ start.messages, Valid m
  prompt_fits : (render (some (.list (start.active_tools.map Prod.snd))) start.messages true).length ≤
    loop.prompt_length
  replies_fit : ∀ (before : List ℤ) (r : Round), r.Genuine py loop start before →
    (T.frames (r.messages.map ToolMessage.toVal) ++ T.opening).length ≤ loop.prompt_length
  completes : ∀ (before : List ℤ) (r : Round), r.Genuine py loop start before →
    T.frames [assistant r.output.token_ids] = T.opening ++ r.output.token_ids ++ separator
  assistant_plain : ∀ ids, Plain (assistant ids)
  assistant_apart : ∀ ids m, ¬Joined m (assistant ids) ∧ ¬Joined (assistant ids) m

section Requests

variable {py : Interp} {loop : Loop σ} {start : AgentData} {assistant : List ℤ → PyVal}
  {render : Option PyVal → List PyVal → Bool → List ℤ} {Valid Plain : PyVal → Prop}
  {Joined : PyVal → PyVal → Prop} {eos_ids separator : List ℤ}
  {T : loop.tokenizer.Standard render Valid Plain Joined eos_ids separator} {s s' : σ}

/-- A rendering that is not too long is used as it is. -/
theorem Loop.applyChatTemplate_rendered {messages : List PyVal} {tools : Option PyVal}
    {ids : List ℤ} (remove : Bool) (h : loop.tokenizer.template messages tools true = .ok ids)
    (hfits : (if remove then ids.drop loop.system_prompt.length else ids).length ≤
      loop.prompt_length) :
    loop.applyChatTemplate messages tools remove =
      .ok (if remove then ids.drop loop.system_prompt.length else ids) := by
  have hids : loop.tokenizer.apply messages tools = .ok ids := by
    rw [Tokenizer.apply, h]
  rw [applyChatTemplate, hids, ok_bind]
  dsimp only
  rw [capTextPromptLength, if_neg (not_lt.mpr hfits)]

/-- The tokens of the messages of a round: the separator, their frames and the next opening. -/
theorem Loop.Canonical.observed (h : loop.Canonical py start assistant T)
    {before : List ℤ} {r : Round}
    (hr : r.Genuine py loop start before) :
    r.observed = separator ++ T.frames (r.messages.map ToolMessage.toVal) ++ T.opening := by
  have hsystem : loop.system_prompt = T.system :=
    Except.ok.inj (h.system_prompt.symm.trans T.systemPrompt)
  have hplain : ∀ m ∈ r.messages.map ToolMessage.toVal, Plain m := fun m hm => by
    obtain ⟨message, -, rfl⟩ := List.mem_map.mp hm
    exact T.tool_plain message
  have hne : r.messages.map ToolMessage.toVal ≠ [] := by
    have hpos : 0 < (sliceTo r.calls loop.max_parallel_calls).length := by
      have hcalled := List.length_pos_iff.mpr hr.called
      have hcalls := h.calls
      rw [sliceTo, if_pos hcalls.le, List.length_take]
      omega
    have hlength := congrArg List.length hr.answered.ids
    rw [List.length_map, List.length_map] at hlength
    rw [← List.length_pos_iff, List.length_map, hlength]
    exact hpos
  have htemplate : loop.tokenizer.template (r.messages.map ToolMessage.toVal) none true =
      .ok (T.system ++ (T.frames (r.messages.map ToolMessage.toVal) ++ T.opening)) := by
    rw [T.rendered none _ true hne fun m hm => T.valid m (hplain m hm), T.opened, T.alone _ hplain,
      List.append_assoc]
  have hids := applyChatTemplate_rendered true htemplate (by
    rw [if_pos rfl, hsystem, List.drop_left]
    exact h.replies_fit before r hr)
  rw [if_pos rfl, hsystem, List.drop_left] at hids
  have hobserved := hr.observed
  rw [observationIds, if_neg h.format.1, if_neg h.format.2, hids, ok_bind] at hobserved
  rw [← Except.ok.inj hobserved, h.turn_separator, T.turnSeparator, List.append_assoc]

theorem Loop.Canonical.completesExchange (h : loop.Canonical py start assistant T) {before : List ℤ}
    {r : Round} (hr : r.Genuine py loop start before) :
    T.Completes separator (r.exchange assistant) := by
  refine ⟨h.completes before r hr, fun n hn => ?_, fun m => (h.assistant_apart _ m).1,
    fun m => (h.assistant_apart _ m).2⟩
  rcases List.mem_cons.mp hn with rfl | hmem
  · exact h.assistant_plain _
  · obtain ⟨message, -, rfl⟩ := List.mem_map.mp hmem
    exact T.tool_plain message

/-- **Every request is a rendering**: whenever the model is to generate, the tokens are those of the
whole conversation, with its tools and the opening of the next answer. -/
theorem Loop.request_is_rendering (h : loop.Canonical py start assistant T) (hfresh : start.Fresh)
    {data : AgentData}
    (hreach : Relation.ReflTransGen (loop.Step py) (.pending, start, s) (.generating, data, s')) :
    ∃ prompt history, loop.History py start prompt history ∧
      data.prompt_ids = render (some (.list (start.active_tools.map Prod.snd)))
        (conversation start.messages (history.map (Round.exchange assistant))) true := by
  obtain ⟨prompt, history, hhistory, hrecords⟩ := stage_reachable hfresh hreach
  refine ⟨prompt, history, hhistory, ?_⟩
  have hprompt : prompt = render (some (.list (start.active_tools.map Prod.snd)))
      start.messages true := by
    have htemplate := T.rendered (some (.list (start.active_tools.map Prod.snd)))
      start.messages true
      h.messages.1 h.messages.2
    exact Except.ok.inj (hhistory.prompted.symm.trans
      (applyChatTemplate_rendered false htemplate h.prompt_fits))
  have htokens : tokensOf history =
      (history.map (Round.exchange assistant)).flatMap (T.written separator) := by
    rw [tokensOf, List.flatMap_map]
    refine List.flatMap_congr fun r hr => ?_
    obtain ⟨before, hgenuine⟩ := hhistory.genuine.forall r hr
    rw [Round.tokens, h.observed hgenuine]
    rfl
  have hcompletes : ∀ e ∈ history.map (Round.exchange assistant), T.Completes separator e := by
    intro e he
    obtain ⟨r, hr, rfl⟩ := List.mem_map.mp he
    obtain ⟨before, hgenuine⟩ := hhistory.genuine.forall r hr
    exact h.completesExchange hgenuine
  rw [hrecords.prompt_ids, Option.elim_none, List.append_nil, hprompt, htokens,
    T.render_conversation _ h.messages.1 hcompletes]

end Requests

/-! ### The small loop -/

/-- The template of the small loop is framed, and its messages end alike. -/
def sampleStandard : sampleLoop.tokenizer.Standard sampleRender (fun _ => True) (fun _ => True)
    (fun _ _ => False) [2] [3] where
  system := [8]
  opening := [1]
  frames := List.flatMap sampleFrame
  opened tools messages := by simp [sampleRender]
  appended tools ms ns _ _ _ := by simp [sampleRender]
  alone ns _ := by simp [sampleRender]
  rendered _ _ _ _ _ := rfl
  valid _ _ := trivial
  user_plain _ := trivial
  user_apart _ _ := id
  tool_plain _ := trivial
  close := 2
  close_eos := List.mem_singleton_self 2
  closing content := ⟨4 :: content.map Int.ofNat, List.flatMap_singleton _ _⟩
  separator_open := by decide

/-- The message for what was generated, up to the closing token. -/
def sampleAssistant (ids : List ℤ) : PyVal :=
  .dict [("role", .str "assistant"), ("content", .str (ids.dropLast.map Int.toNat))]

theorem sampleLoop_canonical : sampleLoop.Canonical .silent
    (sampleLoop.start "request" sampleMessages .null []) sampleAssistant sampleStandard where
  system_prompt := rfl
  turn_separator := rfl
  format := by decide
  calls := by decide
  messages := ⟨List.cons_ne_nil _ _, fun _ _ => trivial⟩
  prompt_fits := by decide
  replies_fit before r hr := by
    obtain ⟨content, hparsed⟩ := hr.parsed
    have hcalls := (Prod.mk.inj (Except.ok.inj hparsed)).2
    obtain ⟨data, s, s', responses, fields, htools, hresponses, hmessages⟩ := hr.answered
    have hone : r.calls = [⟨"\x7b\x7d", "lookup", none⟩] := by
      by_cases hids : r.output.token_ids = [7, 2]
      · rw [← hcalls, if_pos hids]
      · exact absurd (hcalls.symm.trans (if_neg hids)) hr.called
    rw [hone] at hresponses hmessages
    have hrun : sampleLoop.callTools .silent [⟨"\x7b\x7d", "lookup", none⟩] data s =
        (.ok ([({ text := some "ok" }, none)], data.extra_fields), s) := by
      rw [Loop.callTools, htools]
      rfl
    have hresponse := hrun.symm.trans hresponses
    rw [Prod.mk.injEq, Except.ok.injEq, Prod.mk.injEq] at hresponse
    rw [← hresponse.1.1] at hmessages
    rw [← Except.ok.inj hmessages]
    decide
  completes before r hr := by
    obtain ⟨s, s', houtput⟩ := hr.generated
    obtain ⟨houtput, -⟩ := Prod.mk.inj houtput
    rw [← Except.ok.inj houtput]
    rcases s with - | s
    · rfl
    · rfl
  assistant_plain _ := trivial
  assistant_apart _ _ := ⟨id, id⟩

/-- Its second request is the rendering of a question, a call and its answer. -/
theorem request_is_rendering_sample : ∃ prompt history,
    sampleLoop.History .silent (sampleLoop.start "request" sampleMessages .null []) prompt history ∧
      [9, 4, 104, 105, 2, 3, 1, 7, 2, 3, 4, 111, 107, 2, 3, 1] =
        sampleRender (some (.list [.null])) (conversation sampleMessages
          (history.map (Round.exchange sampleAssistant))) true := by
  let start : AgentData := sampleLoop.start "request" sampleMessages .null []
  let prompted : AgentData := { start with prompt_ids := [9, 4, 104, 105, 2, 3, 1] }
  let called : AgentData :=
    { prompted.generate ⟨[7, 2], some [.fin (-1), .fin 0], none, none, []⟩ [] with
      tool_calls := [⟨"\x7b\x7d", "lookup", none⟩] }
  let answered : AgentData := (called.respond [⟨"ok", none⟩] [] []).observe
    [3, 4, 111, 107, 2, 3, 1]
  have hprompted : sampleLoop.Step .silent (.pending, start, 0) (.generating, prompted, 0) := rfl
  have hcalled : sampleLoop.Step .silent (.generating, prompted, 0)
      (.processing_tools, called, 1) := rfl
  have hanswered : sampleLoop.Step .silent (.processing_tools, called, 1)
      (.generating, answered, 1) :=
    rfl
  exact Loop.request_is_rendering sampleLoop_canonical Loop.fresh_start
    (.tail (.tail (.single hprompted) hcalled) hanswered)

end ToolAgentLoop

end ToolAgent
