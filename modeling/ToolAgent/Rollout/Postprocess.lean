import ToolAgent.Library.Padding
import ToolAgent.Rollout.Records

/-!
# Rows of a training batch

`AgentLoopWorker` pads what a rollout hands over to a row of the training batch: the prompt on the
left, the response, its mask and its log probabilities on the right. The mask is padded by the
tokenizer, so with the id of the padding token, and what is too much of it is taken away again by
the attention mask of the response.

That is right as long as the mask has an entry for each token of the response. A rollout whose first
generation is empty hands over its prompt as the response, with an empty mask.

## Main definitions

* `Worker.postprocess`, `rmRow` — the row of an output, and the row of its reward
* `Row.Shows` — the row says what the output says

## Main results

* `Worker.rowOf_shows_iff` — the row shows the output exactly when the mask fits the response
* `Worker.run_row` — when it does so for the output of a run, and what it shows instead
* `rmRow_eq` — the reward is credited once, at the end of the response
-/

namespace ToolAgent

namespace ToolAgentLoop

open Python Prog AgentLoop Padding

variable {σ : Type}

/-! ### The worker -/

/-- What `AgentLoopWorker` reads of its configuration and its tokenizer. -/
structure Worker where
  pad_token_id : Option ℤ
  prompt_length : ℕ
  response_length : ℕ

/-- `_InternalAgentLoopOutput`, one row wide. -/
structure Row where
  prompt_ids : List ℤ
  response_ids : List ℤ
  response_mask : List ℤ
  attention_mask : List ℤ
  input_ids : List ℤ
  position_ids : List ℤ
  response_logprobs : Option (List PyFloat)
  num_turns : ℕ

namespace Worker

variable (worker : Worker)

/-- `_pad_token_ids`: the padded tokens and their attention mask. -/
def padTokenIds (tokens : List ℤ) (max_length : ℕ) (padding_side : Side) :
    Except PyErr (List ℤ × List ℤ) :=
  if tokens = [] then
    .ok (List.replicate max_length (worker.pad_token_id.getD 0), List.replicate max_length 0)
  else
    match worker.pad_token_id with
    | none => throw .valueError ("Asking to pad but the tokenizer does not have a padding token. " ++
        "Please select a token to use as `pad_token`.")
    | some id => .ok (padding_side.pad max_length id tokens,
        padding_side.pad max_length 0 (List.replicate tokens.length 1))

/-- The product of two tensors of the same width. -/
def multiply (xs ys : List ℤ) : Except PyErr (List ℤ) :=
  if xs.length = ys.length then .ok (List.zipWith (· * ·) xs ys)
  else throw .runtimeError "The size of tensor a must match the size of tensor b"

/-- `_agent_loop_postprocess`, for text -/
def postprocess (output : Output) : Except PyErr Row := do
  let (prompt_ids, prompt_attention) ← worker.padTokenIds output.prompt_ids
    worker.prompt_length .left
  let (response_ids, response_attention) ←
    worker.padTokenIds output.response_ids worker.response_length .right
  let (mask_ids, _) ← worker.padTokenIds output.response_mask worker.response_length .right
  let response_mask ← multiply mask_ids response_attention
  let attention_mask := prompt_attention ++ response_attention
  .ok {
    prompt_ids, response_ids, response_mask, attention_mask
    input_ids := prompt_ids ++ response_ids
    position_ids := positions attention_mask
    response_logprobs := output.response_logprobs.map fun logprobs =>
      Side.right.pad worker.response_length (.fin 0) logprobs
    num_turns := output.num_turns }

end Worker

/-- The row of `rm_scores`: the score stands at the last token of the response that is attended to.
The index `-1` of an empty response is the last one of the row. -/
def rmRow (row : Row) (score : ℚ) : Except PyErr (List ℚ) :=
  let width := row.response_mask.length
  let last : ℤ := (row.attention_mask.drop row.prompt_ids.length).sum - 1
  let index := if last < 0 then last + width else last
  if 0 ≤ index ∧ index < width then .ok ((List.replicate width 0).set index.toNat score)
  else throw .indexError "index is out of bounds for dimension"

/-! ### What a row shows -/

/-- The row says what the output says: its attention masks select the prompt, the response and their
concatenation, which the positions number, the mask and the log probabilities are those of the
output where the response is, and zero elsewhere. -/
structure Row.Shows (row : Row) (output : Output) : Prop where
  prompt_ids : select (row.attention_mask.take row.prompt_ids.length) row.prompt_ids =
    output.prompt_ids
  response_ids :
    select (row.attention_mask.drop row.prompt_ids.length) row.response_ids = output.response_ids
  input_ids : select row.attention_mask row.input_ids = output.prompt_ids ++ output.response_ids
  position_ids : select row.attention_mask row.position_ids =
    (List.range (output.prompt_ids ++ output.response_ids).length).map Nat.cast
  response_mask :
    row.response_mask = Side.right.pad row.response_ids.length 0 output.response_mask
  masked : select (row.attention_mask.drop row.prompt_ids.length) row.response_mask =
    output.response_mask
  response_logprobs : row.response_logprobs =
    output.response_logprobs.map (Side.right.pad row.response_ids.length (.fin 0))

/-- What fits into the worker's widths. -/
structure Worker.Fits (worker : Worker) (output : Output) : Prop where
  prompt_ids : output.prompt_ids.length ≤ worker.prompt_length
  response_ids : output.response_ids.length ≤ worker.response_length
  response_mask : output.response_mask.length ≤ output.response_ids.length

section Rows

variable {worker : Worker} {output : Output} {id : ℤ}

theorem Worker.padTokenIds_eq (hpad : worker.pad_token_id = some id) (tokens : List ℤ) (n : ℕ)
    (side : Side) : worker.padTokenIds tokens n side =
      .ok (side.pad n id tokens, side.pad n 0 (List.replicate tokens.length 1)) := by
  rw [padTokenIds]
  split
  · next hnil =>
    subst hnil
    rw [hpad]
    cases side with
    | left => simp [Side.pad]
    | right => simp [Side.pad]
  · rw [hpad]

/-- The row of an output that fits. What is missing of the mask is the id of the padding token. -/
def Worker.rowOf (worker : Worker) (id : ℤ) (output : Output) : Row :=
  let prompt_ids := Side.left.pad worker.prompt_length id output.prompt_ids
  let response_ids := Side.right.pad worker.response_length id output.response_ids
  let attention_mask :=
    Side.left.pad worker.prompt_length 0 (List.replicate output.prompt_ids.length 1) ++
      Side.right.pad worker.response_length 0 (List.replicate output.response_ids.length 1)
  { prompt_ids, response_ids, attention_mask
    response_mask := Side.right.pad worker.response_length 0 (output.response_mask ++
      List.replicate (output.response_ids.length - output.response_mask.length) id)
    input_ids := prompt_ids ++ response_ids
    position_ids := positions attention_mask
    response_logprobs := output.response_logprobs.map
      (Side.right.pad worker.response_length (.fin 0))
    num_turns := output.num_turns }

theorem Worker.postprocess_eq (hpad : worker.pad_token_id = some id) (hfits : worker.Fits output) :
    worker.postprocess output = .ok (worker.rowOf id output) := by
  have hmask : multiply (Side.right.pad worker.response_length id output.response_mask)
      (Side.right.pad worker.response_length 0 (List.replicate output.response_ids.length 1)) =
        .ok (Side.right.pad worker.response_length 0 (output.response_mask ++
          List.replicate (output.response_ids.length - output.response_mask.length) id)) := by
    have hresponse := hfits.response_ids
    have hle := hfits.response_mask
    rw [multiply, if_pos, zipWith_mul_pad_longer id hle hresponse]
    simp only [Side.length_pad, List.length_replicate]
    omega
  rw [postprocess, padTokenIds_eq hpad, ok_bind]
  dsimp only
  rw [padTokenIds_eq hpad, ok_bind]
  dsimp only
  rw [padTokenIds_eq hpad, ok_bind]
  dsimp only
  rw [hmask, ok_bind]
  rfl

/-- What the attention masks of the row select. -/
theorem Worker.select_rowOf (hfits : worker.Fits output) {α : Type} (xs ys : List α)
    (hxs : xs.length = worker.prompt_length) :
    select (worker.rowOf id output).attention_mask (xs ++ ys) =
      select (Side.left.pad worker.prompt_length 0 (List.replicate output.prompt_ids.length 1)) xs ++
        select (Side.right.pad worker.response_length 0
          (List.replicate output.response_ids.length 1)) ys := by
  have hprompt := hfits.prompt_ids
  refine select_append ?_
  rw [Side.length_pad, List.length_replicate, hxs]
  omega

theorem Worker.take_attention :
    (worker.rowOf id output).attention_mask.take (worker.rowOf id output).prompt_ids.length =
      Side.left.pad worker.prompt_length 0 (List.replicate output.prompt_ids.length 1) := by
  rw [rowOf]
  exact List.take_left' (by simp)

theorem Worker.drop_attention :
    (worker.rowOf id output).attention_mask.drop (worker.rowOf id output).prompt_ids.length =
      Side.right.pad worker.response_length 0 (List.replicate output.response_ids.length 1) := by
  rw [rowOf]
  exact List.drop_left' (by simp)

/-- What the attention mask of the response selects of the mask. -/
theorem Worker.select_mask (hfits : worker.Fits output) :
    select ((worker.rowOf id output).attention_mask.drop (worker.rowOf id output).prompt_ids.length)
        (worker.rowOf id output).response_mask =
      output.response_mask ++
        List.replicate (output.response_ids.length - output.response_mask.length) id := by
  have hle := hfits.response_mask
  rw [drop_attention]
  refine Side.right.select_pad_zip _ _ _ _ ?_
  simp only [List.length_append, List.length_replicate]
  omega

theorem Worker.width_rowOf (hfits : worker.Fits output) :
    (worker.rowOf id output).response_ids.length = worker.response_length := by
  rw [rowOf, Side.length_pad]
  exact max_eq_left hfits.response_ids

/-- The positions number what is attended to. -/
theorem Worker.select_position_ids :
    select (worker.rowOf id output).attention_mask (worker.rowOf id output).position_ids =
      (List.range (output.prompt_ids ++ output.response_ids).length).map Nat.cast := by
  have hzero (side : Side) (n k : ℕ) :
      (side.pad n 0 (List.replicate k (1 : ℤ))).countP (· ≠ 0) = k := by
    cases side with
    | left => simp [Side.pad, List.countP_replicate]
    | right => simp [Side.pad, List.countP_replicate]
  have hbit (side : Side) (n k : ℕ) : ∀ m ∈ side.pad n 0 (List.replicate k (1 : ℤ)),
      m = 0 ∨ m = 1 := by
    intro m hm
    cases side with
    | left =>
      rcases List.mem_append.mp hm with h | h
      · exact .inl (List.eq_of_mem_replicate h)
      · exact .inr (List.eq_of_mem_replicate h)
    | right =>
      rcases List.mem_append.mp hm with h | h
      · exact .inr (List.eq_of_mem_replicate h)
      · exact .inl (List.eq_of_mem_replicate h)
  rw [rowOf]
  dsimp only
  rw [select_positions fun m hm => ?_, List.countP_append, hzero, hzero, List.length_append]
  rcases List.mem_append.mp hm with h | h
  · exact hbit _ _ _ m h
  · exact hbit _ _ _ m h

/-- **When a row shows its output**: when the mask has an entry for each token of the response. -/
theorem Worker.rowOf_shows_iff (hfits : worker.Fits output) :
    (worker.rowOf id output).Shows output ↔
      output.response_mask.length = output.response_ids.length := by
  constructor
  · intro h
    have hmasked := congrArg List.length (h.masked.symm.trans (select_mask hfits))
    have hle := hfits.response_mask
    simp only [List.length_append, List.length_replicate] at hmasked
    omega
  · intro hlength
    have hnone : output.response_mask ++
        List.replicate (output.response_ids.length - output.response_mask.length) id =
          output.response_mask := by
      rw [hlength, Nat.sub_self, List.replicate_zero, List.append_nil]
    refine ⟨?_, ?_, ?_, select_position_ids, ?_, ?_, ?_⟩
    · rw [take_attention]
      exact Side.left.select_pad _ _ _
    · rw [drop_attention]
      exact Side.right.select_pad _ _ _
    · have hprompt : (Side.left.pad worker.prompt_length id output.prompt_ids).length =
          worker.prompt_length := by
        rw [Side.length_pad]
        exact max_eq_left hfits.prompt_ids
      refine (select_rowOf hfits _ _ hprompt).trans ?_
      rw [Side.select_pad, Side.select_pad]
    · rw [width_rowOf hfits, rowOf, hnone]
    · rw [select_mask hfits, hnone]
    · rw [width_rowOf hfits]
      rfl

/-! ### The reward -/

theorem sum_set_replicate {n i : ℕ} (h : i < n) (score : ℚ) :
    ((List.replicate n 0).set i score).sum = score := by
  rw [List.set_eq_take_append_cons_drop, if_pos (by simpa using h), List.sum_append, List.sum_cons,
    List.take_replicate, List.drop_replicate]
  simp

/-- **The reward is credited once**, at the end of the response, and at the end of the row if the
response is empty. -/
theorem rmRow_eq (hfits : worker.Fits output) (hwidth : 0 < worker.response_length) (score : ℚ) :
    rmRow (worker.rowOf id output) score = .ok ((List.replicate worker.response_length 0).set
      (if output.response_ids = [] then worker.response_length - 1
        else output.response_ids.length - 1) score) := by
  have hresponse := hfits.response_ids
  have hmask := hfits.response_mask
  have hsum : ((worker.rowOf id output).attention_mask.drop
      (worker.rowOf id output).prompt_ids.length).sum = output.response_ids.length := by
    rw [Worker.drop_attention, Side.pad]
    simp
  have hlength : (worker.rowOf id output).response_mask.length = worker.response_length := by
    rw [Worker.rowOf]
    simp only [Side.length_pad, List.length_append, List.length_replicate]
    omega
  rw [rmRow, hsum, hlength]
  by_cases hnil : output.response_ids = []
  · rw [if_pos hnil, hnil, List.length_nil, if_pos (by omega), if_pos (by omega)]
    congr 2
    omega
  · have hpos := List.length_pos_iff.mpr hnil
    have hindex : (if (output.response_ids.length - 1 : ℤ) < 0 then
        (output.response_ids.length - 1 : ℤ) + worker.response_length
        else output.response_ids.length - 1) = output.response_ids.length - 1 := if_neg (by omega)
    rw [if_neg hnil, hindex, if_pos (by omega)]
    congr 2
    omega

end Rows

/-! ### Rows of runs -/

section Runs

variable {py : Interp} {loop : Loop σ} {worker : Worker} {request_id : PyStr}
    {messages : List PyVal}
  {tools_kwargs : PyVal} {tool_selection : List PyStr} {rounds : ℕ} {output : Output} {id : ℤ}
  {s s' : σ}

theorem Loop.length_capTextPromptLength (hprompt : 0 < loop.prompt_length) (ids : List ℤ) :
    (loop.capTextPromptLength ids).length ≤ loop.prompt_length := by
  rw [capTextPromptLength]
  split
  · rw [sliceFrom, if_neg (by omega), neg_neg, Int.toNat_natCast, List.length_drop]
    omega
  · omega

theorem Loop.length_applyChatTemplate (hprompt : 0 < loop.prompt_length) {tools : Option PyVal}
    {remove : Bool} {ids : List ℤ} (h : loop.applyChatTemplate messages tools remove = .ok ids) :
    ids.length ≤ loop.prompt_length := by
  obtain ⟨rendered, -, hids⟩ := bind_eq_ok.mp h
  rw [← Except.ok.inj hids]
  exact length_capTextPromptLength hprompt _

/-- The output of a run fits, and its mask is shorter than the response only if it is empty. -/
theorem Loop.run_fits (hprompt : 0 < loop.prompt_length)
    (hwidths : worker.prompt_length = loop.prompt_length ∧
      worker.response_length = loop.response_length)
    (h : loop.run py request_id messages tools_kwargs tool_selection rounds s =
      (.ok (some output), s')) :
    worker.Fits output ∧ (output.response_mask.length = output.response_ids.length ↔
      output.response_mask ≠ [] ∨ output.response_ids = []) := by
  obtain ⟨prompt, history, last, hgenerated, hhands⟩ := run_output h
  have hle := hgenerated.toHistory.length_le
  have hpromptlen : output.prompt_ids.length ≤ worker.prompt_length := by
    rw [hhands.prompt_ids, hwidths.1]
    exact length_applyChatTemplate hprompt hgenerated.prompted
  have hmask : output.response_mask.length = (tokensOf history).length +
      (last.token_ids.take (loop.response_length - (tokensOf history).length)).length := by
    rw [hhands.response_mask, List.length_append, length_maskOf, List.length_replicate]
  by_cases hnil : tokensOf history ++ last.token_ids = []
  · obtain ⟨htokens, hlast⟩ := List.append_eq_nil_iff.mp hnil
    have hmaskNil : output.response_mask = [] := by
      rw [← List.length_eq_zero_iff, hmask, htokens, hlast]
      simp
    have hresponse := hhands.prompt_again hnil
    refine ⟨⟨hpromptlen, ?_, by simp [hmaskNil]⟩, ?_⟩
    · rw [hresponse, hwidths.2]
      exact List.length_take_le _ _
    · simp [hmaskNil, eq_comm]
  · have hresponse := hhands.response_ids hnil
    have hequal : output.response_mask.length = output.response_ids.length := by
      rw [hmask, hresponse, List.length_append]
    refine ⟨⟨hpromptlen, ?_, hequal.le⟩, iff_of_true hequal ?_⟩
    · rw [hresponse, List.length_append, List.length_take, hwidths.2]
      omega
    · by_cases hmaskNil : output.response_mask = []
      · right
        rw [← List.length_eq_zero_iff, ← hequal, hmaskNil, List.length_nil]
      · exact .inl hmaskNil

/-- **The row of a run** shows what the run handed over, and carries its reward once, unless the
first generation was empty: then the prompt stands for the response, and all of it is marked, with
the id of the padding token. -/
theorem Worker.run_row (hpad : worker.pad_token_id = some id) (hprompt : 0 < loop.prompt_length)
    (hwidths : worker.prompt_length = loop.prompt_length ∧
      worker.response_length = loop.response_length)
    (h : loop.run py request_id messages tools_kwargs tool_selection rounds s =
      (.ok (some output), s')) :
    ∃ row, worker.postprocess output = .ok row ∧
      (row.Shows output ↔ output.response_mask ≠ [] ∨ output.response_ids = []) ∧
      (¬(output.response_mask ≠ [] ∨ output.response_ids = []) →
        select (row.attention_mask.drop row.prompt_ids.length) row.response_mask =
          List.replicate output.response_ids.length id) ∧
      (0 < loop.response_length → ∀ score, ∃ rm, rmRow row score = .ok rm ∧
        rm.length = loop.response_length ∧ rm.sum = score) := by
  obtain ⟨hfits, hlength⟩ := Loop.run_fits hprompt hwidths h
  refine ⟨worker.rowOf id output, postprocess_eq hpad hfits, (rowOf_shows_iff hfits).trans hlength,
    fun hempty => ?_, fun hwidth score => ⟨_, rmRow_eq hfits (hwidths.2 ▸ hwidth) score, ?_, ?_⟩⟩
  · have hmask : output.response_mask = [] := by
      by_contra hne
      exact hempty (.inl hne)
    rw [select_mask hfits, hmask]
    simp
  · rw [List.length_set, List.length_replicate, hwidths.2]
  · refine sum_set_replicate ?_ score
    have hresponse := hfits.response_ids
    rw [hwidths.2] at hresponse ⊢
    split
    · omega
    · next hne =>
      have hpos := List.length_pos_iff.mpr hne
      omega

/-- The row of the small loop's run. -/
theorem run_row_sample : ∃ row, (⟨some 0, 16, 16⟩ : Worker).postprocess sampleOutput = .ok row ∧
    (row.Shows sampleOutput ↔ sampleOutput.response_mask ≠ [] ∨ sampleOutput.response_ids = []) ∧
    (¬(sampleOutput.response_mask ≠ [] ∨ sampleOutput.response_ids = []) →
      select (row.attention_mask.drop row.prompt_ids.length) row.response_mask =
        List.replicate sampleOutput.response_ids.length 0) ∧
    (0 < 16 → ∀ score, ∃ rm, rmRow row score = .ok rm ∧ rm.length = 16 ∧ rm.sum = score) :=
  Worker.run_row rfl (by decide) ⟨rfl, rfl⟩ sampleLoop_run

end Runs

end ToolAgentLoop

end ToolAgent
