import ToolAgent.Rollout.ToolAgentLoop
import Mathlib.Data.List.Induction
import Mathlib.Logic.Relation

/-!
# What a rollout records

The tool agent loop goes in rounds: a generation that calls tools, and the messages that answer the
calls. This module says what the data of the loop hold after some rounds, that every state of every
run holds that, for rounds that did happen and were within the limits, and what of it is handed
over.

A run ends by itself when there is a limit on its turns, and also without one: it ends when the
response is full, and a generation that goes on has tokens if the parser finds no tool call in
nothing.

## Main definitions

* `Round`, `Records` — the rounds of a rollout, and the data that hold them
* `Round.Genuine`, `Loop.Within` — the server and the tokenizer gave the round, and the limits allow
  it
* `Loop.Stage` — what holds in each state
* `Loop.EndsBy` — some limit ends every run

## Main results

* `Loop.stage_reachable` — every state of every run is what holds there
* `Loop.run_output`, `Loop.run_logprobs` — what is handed over
* `Loop.run_ends` — how many steps a run takes at most
-/

namespace ToolAgent

namespace ToolAgentLoop

open Python Prog AgentLoop

variable {σ : Type}

/-! ### Records -/

/-- A round: a generation, the messages that answer its calls, and their tokens. -/
structure Round where
  output : TokenOutput
  messages : List ToolMessage
  calls : List FunctionCall
  observed : List ℤ

namespace Round

variable (r : Round)

def tokens : List ℤ := r.output.token_ids ++ r.observed

/-- Ones for what was generated, zeros for what was observed. -/
def mask : List ℤ :=
  List.replicate r.output.token_ids.length 1 ++ List.replicate r.observed.length 0

/-- What the server reported for what was generated, and zeros. -/
def logprobs : List PyFloat :=
  r.output.log_probs.getD [] ++ List.replicate r.observed.length (.fin 0)

theorem length_mask : r.mask.length = r.tokens.length := by
  simp [mask, tokens]

end Round

def tokensOf (rounds : List Round) : List ℤ := rounds.flatMap Round.tokens

def maskOf (rounds : List Round) : List ℤ := rounds.flatMap Round.mask

/-- The log probabilities that the loop has after the rounds. It pads them only when it has some. -/
def recordedLogprobs (rounds : List Round) : List PyFloat :=
  rounds.foldl (fun logprobs r =>
    if logprobs ++ r.output.log_probs.getD [] = [] then []
    else logprobs ++ r.output.log_probs.getD [] ++ List.replicate r.observed.length (.fin 0)) []

@[simp] theorem tokensOf_nil : tokensOf [] = [] := rfl

@[simp] theorem maskOf_nil : maskOf [] = [] := rfl

@[simp] theorem tokensOf_concat (rounds : List Round) (r : Round) :
    tokensOf (rounds ++ [r]) = tokensOf rounds ++ r.tokens := by
  simp [tokensOf]

@[simp] theorem maskOf_concat (rounds : List Round) (r : Round) :
    maskOf (rounds ++ [r]) = maskOf rounds ++ r.mask := by
  simp [maskOf]

theorem length_maskOf (rounds : List Round) : (maskOf rounds).length =
    (tokensOf rounds).length := by
  rw [maskOf, tokensOf, List.length_flatMap, List.length_flatMap]
  exact congrArg List.sum (List.map_congr_left fun r _ => r.length_mask)

/-- With log probabilities for every generation they are those of the rounds. -/
theorem recordedLogprobs_eq {rounds : List Round}
    (h : ∀ r ∈ rounds, r.output.log_probs.getD [] ≠ []) :
    recordedLogprobs rounds = rounds.flatMap Round.logprobs := by
  induction rounds using List.reverseRecOn with
  | nil => rfl
  | append_singleton rounds r ih =>
    have hrounds := ih fun r' hr' => h r' (List.mem_append_left _ hr')
    have hr : recordedLogprobs rounds ++ r.output.log_probs.getD [] ≠ [] := fun hnil =>
      h r List.mem_concat_self (List.append_eq_nil_iff.mp hnil).2
    rw [recordedLogprobs, List.foldl_concat]
    change (if recordedLogprobs rounds ++ r.output.log_probs.getD [] = [] then [] else _) = _
    rw [if_neg hr, List.flatMap_append, List.flatMap_singleton, ← hrounds, Round.logprobs,
      ← List.append_assoc]
    rfl

section Records

variable (py : Interp) (loop : Loop σ) (start : AgentData)

/-- The server gave the output for the tokens before it, the parser found the calls in it, and the
tokens of the round are those of the messages, one for each call that is let through. -/
structure Round.Genuine (before : List ℤ) (r : Round) : Prop where
  generated : ∃ s s', loop.generate start.request_id before s = (.ok r.output, s')
  called : r.calls ≠ []
  parsed : ∃ content,
    loop.extract_tool_calls r.output.token_ids (start.active_tools.map Prod.snd) =
      .ok (content, r.calls)
  answered : loop.Answers py start.active_tools (sliceTo r.calls loop.max_parallel_calls) r.messages
  observed : loop.observationIds r.messages
    ((sliceTo r.calls loop.max_parallel_calls).map FunctionCall.name) = .ok r.observed

/-- Every round is genuine, for the tokens before it. -/
def Loop.Genuine : List ℤ → List Round → Prop
  | _, [] => True
  | before, r :: rounds => r.Genuine py loop start before ∧ Loop.Genuine (before ++ r.tokens) rounds

/-- The limits let the loop go on after the rounds. -/
structure Loop.Within (rounds : List Round) : Prop where
  budget : (tokensOf rounds).length < loop.response_length
  assistant : reached loop.max_assistant_turns rounds.length = false
  user : reached loop.max_user_turns (rounds.length - 1) = false

/-- The data hold the prompt, the rounds, and what was generated since. -/
structure Records (prompt : List ℤ) (rounds : List Round) (last : Option TokenOutput)
    (data : AgentData) : Prop where
  request_id : data.request_id = start.request_id
  active_tools : data.active_tools = start.active_tools
  prompt_ids : data.prompt_ids = prompt ++ tokensOf rounds ++ (last.elim [] TokenOutput.token_ids)
  response_mask : data.response_mask =
    maskOf rounds ++ List.replicate (last.elim [] TokenOutput.token_ids).length 1
  response_logprobs : data.response_logprobs =
    recordedLogprobs rounds ++ (last.bind TokenOutput.log_probs).getD []
  assistant_turns : data.assistant_turns = rounds.length + if last.isSome then 1 else 0
  user_turns : data.user_turns = rounds.length

variable {py loop start} {prompt : List ℤ} {rounds : List Round} {data : AgentData}
  {output : TokenOutput}

theorem Loop.genuine_concat {r : Round} (h : loop.Genuine py start prompt rounds)
    (hr : r.Genuine py loop start (prompt ++ tokensOf rounds)) :
    loop.Genuine py start prompt (rounds ++ [r]) := by
  induction rounds generalizing prompt with
  | nil =>
    rw [tokensOf_nil, List.append_nil] at hr
    exact ⟨hr, trivial⟩
  | cons r' rounds ih =>
    refine ⟨h.1, ih h.2 ?_⟩
    rw [tokensOf, List.flatMap_cons, ← List.append_assoc] at hr
    exact hr

theorem Records.generate (h : Records start prompt rounds none data)
    (fields : List (PyStr × PyVal)) :
    Records start prompt rounds (some output) (data.generate output fields) where
  request_id := h.request_id
  active_tools := h.active_tools
  prompt_ids := by simp [AgentData.generate, h.prompt_ids]
  response_mask := by simp [AgentData.generate, h.response_mask]
  response_logprobs := by simp [AgentData.generate, h.response_logprobs]
  assistant_turns := by simp [AgentData.generate, h.assistant_turns]
  user_turns := h.user_turns

theorem Records.respond {last : Option TokenOutput} (h : Records start prompt rounds last data)
    (messages : List ToolMessage) (rewards : List PyFloat) (fields : List (PyStr × PyVal)) :
    Records start prompt rounds last (data.respond messages rewards fields) :=
  ⟨h.request_id, h.active_tools, h.prompt_ids, h.response_mask, h.response_logprobs,
    h.assistant_turns, h.user_turns⟩

theorem Records.observe (h : Records start prompt rounds (some output) data)
    (messages : List ToolMessage) (calls : List FunctionCall) (ids : List ℤ) :
    Records start prompt (rounds ++ [⟨output, messages, calls, ids⟩]) none (data.observe ids) where
  request_id := h.request_id
  active_tools := h.active_tools
  prompt_ids := by simp [AgentData.observe, h.prompt_ids, Round.tokens]
  response_mask := by simp [AgentData.observe, h.response_mask, Round.mask]
  response_logprobs := by
    simp [AgentData.observe, h.response_logprobs, recordedLogprobs, List.foldl_append]
  assistant_turns := by simp [AgentData.observe, h.assistant_turns]
  user_turns := by simp [AgentData.observe, h.user_turns]

theorem Records.length_mask {last : Option TokenOutput}
    (h : Records start prompt rounds last data) :
    data.response_mask.length =
      (tokensOf rounds).length + (last.elim [] TokenOutput.token_ids).length := by
  rw [h.response_mask, List.length_append, length_maskOf, List.length_replicate]

end Records

/-! ### Runs -/

section Runs

variable (py : Interp) (loop : Loop σ) (start : AgentData)

/-- What has happened up to the next generation: the prompt was rendered, and the rounds are genuine
and within the limits. -/
structure Loop.History (prompt : List ℤ) (rounds : List Round) : Prop where
  prompted : loop.applyChatTemplate start.messages
    (some (.list (start.active_tools.map Prod.snd))) false = .ok prompt
  genuine : loop.Genuine py start prompt rounds
  within : rounds ≠ [] → loop.Within rounds

/-- The server gave the output after the rounds. -/
structure Loop.Generated (prompt : List ℤ) (rounds : List Round) (output : TokenOutput) : Prop
    extends Loop.History py loop start prompt rounds where
  generated : ∃ s s', loop.generate start.request_id (prompt ++ tokensOf rounds) s =
    (.ok output, s')

/-- What holds in each state. -/
def Loop.Stage : AgentState → AgentData → Prop
  | .pending, data => data = start
  | .generating, data => ∃ prompt rounds, loop.History py start prompt rounds ∧
      Records start prompt rounds none data
  | .processing_tools, data => ∃ prompt rounds output,
    loop.Generated py start prompt rounds output ∧
      Records start prompt rounds (some output) data ∧ loop.mustEnd data = false ∧
      data.tool_calls ≠ [] ∧ ∃ content,
        loop.extract_tool_calls output.token_ids (start.active_tools.map Prod.snd) =
          .ok (content, data.tool_calls)
  | .terminated, data => ∃ prompt rounds output, loop.Generated py start prompt rounds output ∧
      Records start prompt rounds (some output) data

/-- Nothing is recorded yet. -/
structure AgentData.Fresh : Prop where
  response_mask : start.response_mask = []
  response_logprobs : start.response_logprobs = []
  assistant_turns : start.assistant_turns = 0
  user_turns : start.user_turns = 0

/-- One step, with the world. -/
def Loop.Step (c c' : AgentState × AgentData × σ) : Prop :=
  loop.handle py c.1 c.2.1 c.2.2 = (.ok (c'.1, c'.2.1), c'.2.2)

variable {py loop start} {data data' : AgentData} {state state' : AgentState} {s s' : σ}

theorem Loop.mustEnd_eq_false : loop.mustEnd data = false ↔
    data.response_mask.length < loop.response_length ∧
      reached loop.max_assistant_turns data.assistant_turns = false ∧
        reached loop.max_user_turns data.user_turns = false := by
  simp [mustEnd, and_assoc]

/-- **One step** keeps what holds in each state. -/
theorem Loop.Stage.step (hfresh : start.Fresh) (h : loop.Stage py start state data)
    (hstep : loop.handle py state data s = (.ok (state', data'), s')) :
    loop.Stage py start state' data' := by
  cases state with
  | pending =>
    subst h
    obtain ⟨ids, hids, rfl, rfl⟩ := pending_cases hstep
    exact ⟨ids, [], ⟨hids, trivial, fun h => absurd rfl h⟩, rfl, rfl, by simp,
      by simpa using hfresh.response_mask, by simpa [recordedLogprobs] using hfresh.response_logprobs,
      hfresh.assistant_turns, hfresh.user_turns⟩
  | generating =>
    obtain ⟨prompt, rounds, hhistory, hrecords⟩ := h
    obtain ⟨output, fields, ⟨s₁, s₂, hgenerate⟩, hcases⟩ := generating_cases hstep
    rw [hrecords.request_id, hrecords.prompt_ids, Option.elim_none, List.append_nil] at hgenerate
    have hgenerated : loop.Generated py start prompt rounds output := ⟨hhistory, s₁, s₂, hgenerate⟩
    have hrecords' : Records start prompt rounds (some output) (data.generate output fields) :=
      hrecords.generate fields
    obtain ⟨rfl, rfl⟩ | ⟨hend, content, calls, hcalls, rfl, rfl⟩ := hcases
    · exact ⟨prompt, rounds, output, hgenerated, hrecords'⟩
    · have hrecords'' : Records start prompt rounds (some output)
          { data.generate output fields with tool_calls := calls } :=
        ⟨hrecords'.request_id, hrecords'.active_tools, hrecords'.prompt_ids,
          hrecords'.response_mask,
          hrecords'.response_logprobs, hrecords'.assistant_turns, hrecords'.user_turns⟩
      split
      · exact ⟨prompt, rounds, output, hgenerated, hrecords''⟩
      · next hne =>
        rw [hrecords.active_tools] at hcalls
        exact ⟨prompt, rounds, output, hgenerated, hrecords'', hend, hne, content, hcalls⟩
  | processing_tools =>
    obtain ⟨prompt, rounds, output, hgenerated, hrecords, hend, hne, hcalls⟩ := h
    obtain ⟨messages, rewards, fields, ids, hanswered, hids, hcases⟩ := processingTools_cases hstep
    rw [hrecords.active_tools] at hanswered
    have hresponded := hrecords.respond messages rewards fields
    obtain ⟨rfl, rfl⟩ | ⟨hfits, rfl, rfl⟩ := hcases
    · exact ⟨prompt, rounds, output, hgenerated, hresponded⟩
    · refine ⟨prompt, rounds ++ [⟨output, messages, data.tool_calls, ids⟩],
        ⟨hgenerated.prompted, ?_, fun _ => ?_⟩, hresponded.observe messages data.tool_calls ids⟩
      · exact genuine_concat hgenerated.genuine ⟨hgenerated.generated, hne, hcalls, hanswered, hids⟩
      · obtain ⟨-, hassistant, huser⟩ := mustEnd_eq_false.mp hend
        rw [hrecords.assistant_turns] at hassistant
        rw [hrecords.user_turns] at huser
        rw [hrecords.length_mask] at hfits
        refine ⟨?_, by simpa using hassistant, by simpa using huser⟩
        simpa [Round.tokens, add_assoc] using hfits
  | terminated =>
    obtain ⟨rfl, rfl⟩ := Prod.mk.inj (Except.ok.inj (Prod.mk.inj hstep).1)
    exact h

/-- **Every state of every run** is what holds there: the record of genuine rounds within the
limits. -/
theorem Loop.stage_reachable (hfresh : start.Fresh) {c : AgentState × AgentData × σ}
    (h : Relation.ReflTransGen (loop.Step py) (.pending, start, s) c) :
    loop.Stage py start c.1 c.2.1 := by
  induction h with
  | refl => exact (rfl : start = start)
  | tail _ hstep ih => exact ih.step hfresh hstep

theorem Loop.whileLoop_reaches {rounds : ℕ}
    (h : loop.whileLoop py rounds state data s = (.ok (some data'), s')) :
    Relation.ReflTransGen (loop.Step py) (state, data, s) (.terminated, data', s') := by
  induction rounds generalizing state data s with
  | zero =>
    obtain ⟨hdata, rfl⟩ := Prod.mk.inj h
    by_cases hstate : state = .terminated
    · rw [if_pos hstate] at hdata
      obtain rfl := Option.some.inj (Except.ok.inj hdata)
      rw [hstate]
    · rw [if_neg hstate] at hdata
      cases hdata
  | succ rounds ih =>
    rw [whileLoop] at h
    split at h
    · next hstate =>
      obtain ⟨hdata, rfl⟩ := Prod.mk.inj h
      obtain rfl := Option.some.inj (Except.ok.inj hdata)
      rw [hstate]
    · obtain ⟨⟨state₁, data₁⟩, s₁, hhandle, hrest⟩ := bind_run_ok.mp h
      have hstep : loop.Step py (state, data, s) (state₁, data₁, s₁) := hhandle
      exact .head hstep (ih hrest)

/-! ### What is handed over -/

/-- What the output says of the prompt, the rounds and the last generation. -/
structure Loop.HandsOver (loop : Loop σ) (prompt : List ℤ) (rounds : List Round)
    (last : TokenOutput) (output : Output) : Prop where
  prompt_ids : output.prompt_ids = prompt
  /-- Only the last generation is cut. -/
  response_ids : tokensOf rounds ++ last.token_ids ≠ [] → output.response_ids =
    tokensOf rounds ++ last.token_ids.take (loop.response_length - (tokensOf rounds).length)
  /-- The slice `[-0:]` is everything. -/
  prompt_again : tokensOf rounds ++ last.token_ids = [] →
    output.response_ids = prompt.take loop.response_length
  response_mask : output.response_mask = maskOf rounds ++ List.replicate
    (last.token_ids.take (loop.response_length - (tokensOf rounds).length)).length 1
  num_turns : output.num_turns = 2 * rounds.length + 2

theorem Loop.History.length_le {prompt : List ℤ} {rounds : List Round}
    (h : loop.History py start prompt rounds) : (tokensOf rounds).length ≤
    loop.response_length := by
  by_cases hrounds : rounds = []
  · simp [hrounds]
  · exact (h.within hrounds).budget.le

theorem Loop.handsOver {prompt : List ℤ} {rounds : List Round} {last : TokenOutput}
    (hhistory : loop.History py start prompt rounds)
    (h : Records start prompt rounds (some last) data) :
    loop.HandsOver prompt rounds last (loop.output data) := by
  have hids : data.prompt_ids = prompt ++ (tokensOf rounds ++ last.token_ids) := by
    rw [h.prompt_ids, List.append_assoc]
    rfl
  have hmask : data.response_mask.length = (tokensOf rounds ++ last.token_ids).length := by
    rw [h.length_mask, List.length_append]
    rfl
  have hle : (tokensOf rounds).length ≤ loop.response_length := hhistory.length_le
  refine ⟨?_, fun hne => ?_, fun hnil => ?_, ?_, ?_⟩
  · rw [output, hids, hmask, List.length_append, Nat.cast_add, add_sub_cancel_right, sliceTo,
      if_pos (Int.natCast_nonneg _), Int.toNat_natCast, List.take_left]
  · have hpos : 0 < (tokensOf rounds ++ last.token_ids).length := List.length_pos_iff.mpr hne
    rw [output, hids, hmask, sliceFrom, if_neg (by omega), neg_neg, Int.toNat_natCast,
      List.length_append, Nat.add_sub_cancel, List.drop_left, List.take_append,
      List.take_of_length_le hle]
  · rw [output, hids, hmask, hnil]
    simp [sliceFrom]
  · rw [output, h.response_mask, List.take_append, length_maskOf, List.take_of_length_le
      ((length_maskOf rounds).trans_le hle), List.take_replicate, Option.elim_some,
      List.length_take]
  · rw [output, h.user_turns, h.assistant_turns, Option.isSome_some, if_pos rfl]
    dsimp only
    omega

variable {request_id : PyStr} {messages : List PyVal} {tools_kwargs : PyVal}
  {tool_selection : List PyStr} {rounds : ℕ} {output : Output}

theorem Loop.fresh_start : (loop.start request_id messages tools_kwargs tool_selection).Fresh :=
  ⟨rfl, rfl, rfl, rfl⟩

/-- A run that returns has come to an end, and its output is built from what it has there. -/
theorem Loop.run_cases
    (h : loop.run py request_id messages tools_kwargs tool_selection rounds s =
      (.ok (some output), s')) :
    ∃ data, output = loop.output data ∧
      loop.Stage py (loop.start request_id messages tools_kwargs tool_selection)
        .terminated data := by
  obtain ⟨result, s₁, hloop, hrest⟩ := bind_run_ok.mp h
  obtain ⟨data, hdata, hout⟩ := Option.map_eq_some_iff.mp (Except.ok.inj (Prod.mk.inj hrest).1)
  subst hdata
  exact ⟨data, hout.symm, stage_reachable fresh_start (whileLoop_reaches hloop)⟩

/-- **What is handed over** is the rendered prompt, and the rounds and the last generation as the
server gave them, masked, and cut in the last generation only. -/
theorem Loop.run_output
    (h : loop.run py request_id messages tools_kwargs tool_selection rounds s =
      (.ok (some output), s')) :
    ∃ prompt history last,
      loop.Generated py (loop.start request_id messages tools_kwargs tool_selection) prompt
        history last ∧
        loop.HandsOver prompt history last output := by
  obtain ⟨data, rfl, prompt, history, last, hgenerated, hrecords⟩ := run_cases h
  exact ⟨prompt, history, last, hgenerated, handsOver hgenerated.toHistory hrecords⟩

theorem sampleLoop_run : sampleLoop.run .silent "request" sampleMessages .null [] 32 0 =
    (.ok (some sampleOutput), 2) := rfl

/-- The model calls a tool, is answered, and stops. -/
theorem run_output_sample : ∃ prompt history last,
    sampleLoop.Generated .silent (sampleLoop.start "request" sampleMessages .null []) prompt
      history last ∧
      sampleLoop.HandsOver prompt history last sampleOutput :=
  Loop.run_output sampleLoop_run

/-! ### Log probabilities -/

/-- The server reports one log probability for each token. -/
def Loop.Reports (loop : Loop σ) : Prop :=
  ∀ request_id ids s output s', loop.generate request_id ids s = (.ok output, s') →
    (output.log_probs.getD []).length = output.token_ids.length

/-- There is no tool call in nothing. -/
def Loop.Silent (loop : Loop σ) : Prop :=
  ∀ schemas content calls, loop.extract_tool_calls [] schemas = .ok (content, calls) → calls = []

theorem Loop.Genuine.forall {prompt : List ℤ} {history : List Round}
    (h : loop.Genuine py start prompt history) :
    ∀ r ∈ history, ∃ before, r.Genuine py loop start before := by
  induction history generalizing prompt with
  | nil => simp
  | cons r history ih =>
    intro r' hr'
    rcases List.mem_cons.mp hr' with rfl | hmem
    · exact ⟨prompt, h.1⟩
    · exact ih h.2 r' hmem

theorem Round.Genuine.token_ids_ne_nil {before : List ℤ} {r : Round}
    (h : r.Genuine py loop start before) (hsilent : loop.Silent) : r.output.token_ids ≠ [] := by
  intro hnil
  obtain ⟨content, hcalls⟩ := h.parsed
  rw [hnil] at hcalls
  exact h.called (hsilent _ _ _ hcalls)

/-- **Log probabilities stay aligned**: the output has one for each entry of its mask, the server's
for what was generated and zero for what was observed. -/
theorem Loop.run_logprobs (hreports : loop.Reports) (hsilent : loop.Silent)
    (h : loop.run py request_id messages tools_kwargs tool_selection rounds s =
      (.ok (some output), s')) :
    ∃ prompt history last,
      loop.Generated py (loop.start request_id messages tools_kwargs tool_selection) prompt
        history last ∧
        output.response_mask = maskOf history ++ List.replicate
          (last.token_ids.take (loop.response_length - (tokensOf history).length)).length 1 ∧
        output.response_logprobs.getD [] = history.flatMap Round.logprobs ++
          (last.log_probs.getD []).take (loop.response_length - (tokensOf history).length) ∧
        (output.response_logprobs.getD []).length = output.response_mask.length := by
  obtain ⟨data, rfl, prompt, history, last, hgenerated, hrecords⟩ := run_cases h
  have hmask := (handsOver hgenerated.toHistory hrecords).response_mask
  have hround : ∀ r ∈ history, (r.output.log_probs.getD []).length = r.output.token_ids.length ∧
      r.output.token_ids ≠ [] := by
    intro r hr
    obtain ⟨before, hgenuine⟩ := hgenerated.genuine.forall r hr
    obtain ⟨s₁, s₂, houtput⟩ := hgenuine.generated
    exact ⟨hreports _ _ _ _ _ houtput, hgenuine.token_ids_ne_nil hsilent⟩
  have hlast : (last.log_probs.getD []).length = last.token_ids.length := by
    obtain ⟨s₁, s₂, houtput⟩ := hgenerated.generated
    exact hreports _ _ _ _ _ houtput
  have hlength : (history.flatMap Round.logprobs).length = (tokensOf history).length := by
    rw [tokensOf, List.length_flatMap, List.length_flatMap]
    refine congrArg List.sum (List.map_congr_left fun r hr => ?_)
    simp [Round.logprobs, Round.tokens, (hround r hr).1]
  have hdata : data.response_logprobs =
      history.flatMap Round.logprobs ++ last.log_probs.getD [] := by
    rw [hrecords.response_logprobs, recordedLogprobs_eq fun r hr => ?_]
    · rfl
    · rw [← List.length_pos_iff, (hround r hr).1, List.length_pos_iff]
      exact (hround r hr).2
  have hlogprobs : (loop.output data).response_logprobs.getD [] = history.flatMap Round.logprobs ++
      (last.log_probs.getD []).take (loop.response_length - (tokensOf history).length) := by
    have htake : (loop.output data).response_logprobs.getD [] =
        data.response_logprobs.take loop.response_length := by
      rw [Loop.output]
      split
      · next hnil => simp [hnil]
      · rfl
    rw [htake, hdata, List.take_append, hlength, List.take_of_length_le]
    rw [hlength]
    exact hgenerated.length_le
  refine ⟨prompt, history, last, hgenerated, hmask, hlogprobs, ?_⟩
  rw [hlogprobs, hmask]
  simp [hlength, hlast, length_maskOf]

theorem sampleLoop_reports : sampleLoop.Reports := by
  intro request_id ids s output s' h
  obtain ⟨houtput, -⟩ := Prod.mk.inj h
  rw [← Except.ok.inj houtput]
  rfl

theorem sampleLoop_silent : sampleLoop.Silent := by
  intro schemas content calls h
  exact (Prod.mk.inj (Except.ok.inj h)).2.symm

theorem run_logprobs_sample : ∃ prompt history last,
    sampleLoop.Generated .silent (sampleLoop.start "request" sampleMessages .null []) prompt
      history last ∧
      sampleOutput.response_mask = maskOf history ++ List.replicate
        (last.token_ids.take (16 - (tokensOf history).length)).length 1 ∧
      sampleOutput.response_logprobs.getD [] = history.flatMap Round.logprobs ++
        (last.log_probs.getD []).take (16 - (tokensOf history).length) ∧
      (sampleOutput.response_logprobs.getD []).length = sampleOutput.response_mask.length :=
  Loop.run_logprobs sampleLoop_reports sampleLoop_silent sampleLoop_run

/-! ### How long a run takes -/

/-- Some limit lets no more than `bound` generations happen. -/
def Loop.EndsBy (loop : Loop σ) (bound : ℕ) : Prop :=
  (loop.Silent ∧ max 1 loop.response_length ≤ bound) ∨
    (∃ limit, loop.max_assistant_turns = some limit ∧ limit ≠ 0 ∧ max 1 limit ≤ bound) ∨
    (∃ limit, loop.max_user_turns = some limit ∧ limit ≠ 0 ∧ max 1 (limit + 1) ≤ bound)

theorem Loop.EndsBy.pos {bound : ℕ} (h : loop.EndsBy bound) : 0 < bound := by
  rcases h with ⟨-, h⟩ | ⟨limit, -, -, h⟩ | ⟨limit, -, -, h⟩ <;> omega

/-- Within the limits there are fewer turns than `bound`. -/
theorem Loop.EndsBy.lt {bound turns tokens : ℕ} (h : loop.EndsBy bound)
    (hcount : loop.Silent → turns ≤ tokens) (hbudget : tokens < loop.response_length)
    (hassistant : reached loop.max_assistant_turns turns = false)
    (huser : reached loop.max_user_turns (turns - 1) = false) : turns < bound := by
  rcases h with ⟨hsilent, hbound⟩ | ⟨limit, hlimit, hne, hbound⟩ | ⟨limit, hlimit, hne, hbound⟩
  · have := hcount hsilent
    omega
  · rw [hlimit, reached, decide_eq_false_iff_not, not_and, not_le] at hassistant
    have := hassistant hne
    omega
  · rw [hlimit, reached, decide_eq_false_iff_not, not_and, not_le] at huser
    have := huser hne
    omega

/-- Every round has a token. -/
theorem Loop.Genuine.length_le {prompt : List ℤ} {history : List Round}
    (h : loop.Genuine py start prompt history) (hsilent : loop.Silent) :
    history.length ≤ (tokensOf history).length := by
  induction history generalizing prompt with
  | nil => simp
  | cons r history ih =>
    have hr : 0 < r.output.token_ids.length :=
      List.length_pos_iff.mpr (h.1.token_ids_ne_nil hsilent)
    have hrest := ih h.2
    have htokens : (tokensOf (r :: history)).length =
        r.tokens.length + (tokensOf history).length := by
      simp [tokensOf]
    rw [List.length_cons, htokens, Round.tokens, List.length_append]
    omega

theorem Loop.History.length_lt {bound : ℕ} (hbound : loop.EndsBy bound) {prompt : List ℤ}
    {history : List Round} (h : loop.History py start prompt history) : history.length < bound := by
  by_cases hnil : history = []
  · rw [hnil]
    exact hbound.pos
  · obtain ⟨hbudget, hassistant, huser⟩ := h.within hnil
    exact hbound.lt h.genuine.length_le hbudget hassistant huser

/-- The steps that are left at most. -/
def stepsLeft (bound : ℕ) : AgentState → ℕ → ℕ
  | .pending, _ => 2 * bound
  | .generating, turns => 2 * (bound - turns) - 1
  | .processing_tools, turns => 2 * (bound - turns)
  | .terminated, _ => 0

/-- In a state that is not the last one, steps are left. -/
theorem Loop.Stage.turns_lt {bound : ℕ} (hbound : loop.EndsBy bound) (hfresh : start.Fresh)
    (h : loop.Stage py start state data) (hstate : state ≠ .terminated) :
    data.assistant_turns < bound := by
  cases state with
  | pending =>
    rw [show data = start from h, hfresh.assistant_turns]
    exact hbound.pos
  | generating =>
    obtain ⟨prompt, history, hhistory, hrecords⟩ := h
    rw [hrecords.assistant_turns]
    exact hhistory.length_lt hbound
  | processing_tools =>
    obtain ⟨prompt, history, output, hgenerated, hrecords, hend, hne, content, hcalls⟩ := h
    obtain ⟨hbudget, hassistant, huser⟩ := mustEnd_eq_false.mp hend
    have hturns : data.assistant_turns = history.length + 1 := hrecords.assistant_turns
    rw [hrecords.user_turns] at huser
    refine hbound.lt (fun hsilent => ?_) hbudget hassistant ?_
    · have hoccupied : 0 < output.token_ids.length := by
        refine List.length_pos_iff.mpr fun hnil => ?_
        rw [hnil] at hcalls
        exact hne (hsilent _ _ _ hcalls)
      have hrounds := hgenerated.genuine.length_le hsilent
      rw [hrecords.length_mask, hturns, Option.elim_some]
      omega
    · rw [hturns, Nat.add_sub_cancel]
      exact huser
  | terminated => exact absurd rfl hstate

/-- Every step leaves fewer. -/
theorem Loop.Stage.stepsLeft_lt {bound : ℕ} (hbound : loop.EndsBy bound) (hfresh : start.Fresh)
    (h : loop.Stage py start state data) (hstate : state ≠ .terminated)
    (hstep : loop.handle py state data s = (.ok (state', data'), s')) :
    stepsLeft bound state' data'.assistant_turns < stepsLeft bound state data.assistant_turns := by
  have hlt := h.turns_lt hbound hfresh hstate
  cases state with
  | pending =>
    obtain ⟨ids, -, rfl, rfl⟩ := pending_cases hstep
    simp only [stepsLeft]
    omega
  | generating =>
    obtain ⟨output, fields, -, ⟨rfl, rfl⟩ | ⟨-, content, calls, -, rfl, rfl⟩⟩ :=
      generating_cases hstep
    · simp only [stepsLeft]
      omega
    · split
      · simp only [stepsLeft]
        omega
      · simp only [stepsLeft, AgentData.generate]
        omega
  | processing_tools =>
    obtain ⟨messages, rewards, fields, ids, -, -, ⟨rfl, rfl⟩ | ⟨-, rfl, rfl⟩⟩ :=
      processingTools_cases hstep
    · simp only [stepsLeft]
      omega
    · simp only [stepsLeft, AgentData.observe, AgentData.respond]
      omega
  | terminated => exact absurd rfl hstate

theorem Loop.whileLoop_ends {bound : ℕ} (hbound : loop.EndsBy bound) (hfresh : start.Fresh)
    (h : loop.Stage py start state data)
    (hrounds : stepsLeft bound state data.assistant_turns ≤ rounds) :
    (loop.whileLoop py rounds state data s).1 ≠ .ok none := by
  induction rounds generalizing state data s with
  | zero =>
    have hstate : state = .terminated := by
      by_contra hne
      have hlt := h.turns_lt hbound hfresh hne
      cases state with
      | pending => exact absurd hrounds (by simp only [stepsLeft]; omega)
      | generating => exact absurd hrounds (by simp only [stepsLeft]; omega)
      | processing_tools => exact absurd hrounds (by simp only [stepsLeft]; omega)
      | terminated => exact hne rfl
    rw [whileLoop, if_pos hstate]
    exact fun hnone => Option.some_ne_none _ (Except.ok.inj hnone)
  | succ rounds ih =>
    rw [whileLoop]
    split
    · exact fun hnone => Option.some_ne_none _ (Except.ok.inj hnone)
    · next hstate =>
      rcases hhandle : loop.handle py state data s with ⟨e | ⟨state', data'⟩, s'⟩
      · rw [bind_run_of_error hhandle]
        exact fun hnone => nomatch hnone
      · rw [bind_run_of_ok hhandle]
        have hless := h.stepsLeft_lt hbound hfresh hstate hhandle
        exact ih (h.step hfresh hhandle) (by omega)

/-- **A run ends** by itself: when some limit lets at most `bound` generations happen, `2 * bound`
steps are enough to return or to raise, whatever the server and the tools do, and what is returned
has at most `2 * bound` turns. -/
theorem Loop.run_ends {bound : ℕ} (hbound : loop.EndsBy bound)
    (hrounds : 2 * bound ≤ rounds) (s : σ) :
    (∃ e, (loop.run py request_id messages tools_kwargs tool_selection rounds s).1 = .error e) ∨
      ∃ output, (loop.run py request_id messages tools_kwargs tool_selection rounds s).1 =
        .ok (some output) ∧ output.num_turns ≤ 2 * bound := by
  rcases hrun : loop.run py request_id messages tools_kwargs tool_selection rounds s with
    ⟨e | - | output, s'⟩
  · exact .inl ⟨e, rfl⟩
  · obtain ⟨result, s₁, hloop, hrest⟩ := bind_run_ok.mp hrun
    obtain rfl : result = none := Option.map_eq_none_iff.mp (Except.ok.inj (Prod.mk.inj hrest).1)
    have hstage : loop.Stage py (loop.start request_id messages tools_kwargs tool_selection) .pending
        (loop.start request_id messages tools_kwargs tool_selection) := rfl
    exact absurd (congrArg Prod.fst hloop) (whileLoop_ends hbound fresh_start hstage hrounds)
  · obtain ⟨prompt, history, last, hgenerated, hhands⟩ := run_output hrun
    have hlength := hgenerated.toHistory.length_lt hbound
    refine .inr ⟨output, rfl, ?_⟩
    rw [hhands.num_turns]
    omega

/-- With 16 tokens to respond, 32 steps are enough. -/
theorem run_ends_sample :
    (∃ e, (sampleLoop.run .silent "request" sampleMessages .null [] 32 0).1 = .error e) ∨
      ∃ output, (sampleLoop.run .silent "request" sampleMessages .null [] 32 0).1 =
        .ok (some output) ∧ output.num_turns ≤ 32 :=
  Loop.run_ends (.inl ⟨sampleLoop_silent, by decide⟩) (Nat.le_refl (2 * 16)) 0

end Runs

end ToolAgentLoop

end ToolAgent
