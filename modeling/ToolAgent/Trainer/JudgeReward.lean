import ToolAgent.Library.Sweep
import ToolAgent.Training.LlmJudge
import Mathlib.Algebra.BigOperators.Group.Finset.Piecewise
import Mathlib.Data.Fin.VecNotation
import Mathlib.Data.Fintype.BigOperators
import Mathlib.Order.Bounds.Basic

/-!
# The judge reward of a batch

`apply_judge_reward` of `verl.trainer.ppo.agentic_extensions`: in every task group that has a
success, each failure is densified and its reward row rewritten in place.

Tensors of the batch are functions of row and position, so that their shapes agree by type. Rewards
are exact rationals.

## Why the ranking survives

A success keeps its row and so its total of at least `1`. A failure either keeps its row and so
its total below `1`, or is worth at most `alpha`, which is below `1` as well. The group keys play no
part in this, only in the choice of the rows that are rewritten.

## Why the call can raise

`densify_rewards` of `llm_judge` catches whatever step extraction raises and leaves the row alone.
`apply_judge_reward` does not. One history of the wrong form, in a group that has a success, and
the whole batch is without a reward.

## Main definitions

* `applyJudgeReward` — the function
* `OutcomeAnchored` — what it promises of the rewards before and after

## Main results

* `applyJudgeReward_anchored` — whatever it returns is outcome-anchored
* `applyJudgeReward_ok_iff` — it returns exactly when every row it judges is `Scorable`
* `applyJudgeReward_anchored_iff` — the two together
-/

namespace ToolAgent

namespace JudgeReward

open Python LlmJudge

variable {rows width : ℕ}

/-! ### The batch -/

/-- A tensor of `rows` rows of the length of a response. -/
abbrev Tensor (rows width : ℕ) (α : Type) := Fin rows → Fin width → α

/-- The part of the batch that `apply_judge_reward` reads. A column that is absent is `none`. -/
structure Batch (rows width : ℕ) where
  response_mask : Tensor rows width ℤ
  llm_judge_messages : Option (Fin rows → PyVal)
  task_id : Option (Fin rows → PyVal)
  uid : Option (Fin rows → PyVal)

/-- `reward_tensor[idx].sum()`. -/
def total (row : Fin width → ℚ) : ℚ := ∑ p, row p

theorem total_single (p : Fin width) (v : ℚ) : total (Pi.single p v) = v := by
  rw [total, Finset.sum_pi_single']
  exact if_pos (Finset.mem_univ p)

/-- `task_id`, or else `uid`. -/
def Batch.taskIds (batch : Batch rows width) : Option (Fin rows → PyVal) :=
  match batch.task_id with
  | some ids => some ids
  | none => batch.uid

/-- `str(task_ids[idx])`. -/
def Batch.taskIdAt (py : Interp) (batch : Batch rows width) (idx : Fin rows) :
    Except PyErr PyStr :=
  match batch.taskIds with
  | some ids => .ok (py.str (ids idx))
  | none => throw .indexError "list index out of range"

/-- `task_keys[idx]`. -/
def Batch.taskKey (py : Interp) (batch : Batch rows width) (idx : Fin rows) : PyStr :=
  match batch.taskIds with
  | some ids => py.str (ids idx)
  | none => PyStr.ofString (toString idx.val)

/-- `success_by_task.get(key, False)`. -/
def anchored (success : List (PyStr × Bool)) (key : PyStr) : Bool := (success.lookup key).getD false

def successByTask (key : Fin rows → PyStr) (rewards : Tensor rows width ℚ) : List (PyStr × Bool) :=
  (List.finRange rows).foldl (fun success idx =>
    dictSet success (key idx) (anchored success (key idx) || decide (1 ≤ total (rewards idx)))) []

/-- `response_mask.nonzero(...).flatten()[-1]`, if there is one. -/
def lastValid (mask : Fin width → ℤ) : Option (Fin width) :=
  ((List.finRange width).filter (mask · ≠ 0)).getLast?

/-! ### The loop over the rows -/

structure State (rows width : ℕ) where
  rewards : Tensor rows width ℚ
  judged : ℕ
  skipped_without_success : ℕ
  /-- The judge calls made so far. -/
  calls : ℕ

/-- Zero the row of index `idx` and write `dense` at its last valid position. A row without a valid
position stays. -/
def State.rewriteRow (st : State rows width) (idx : Fin rows) (mask : Fin width → ℤ) (dense : ℚ) :
    State rows width :=
  match lastValid mask with
  | some last =>
    { st with
      rewards := Function.update st.rewards idx (Pi.single last dense)
      judged := st.judged + 1 }
  | none => st

/-- One round of the loop: the row of index `idx`. -/
def judgeRow (py : Interp) (judge : Judge) (config : JudgeConfig) (batch : Batch rows width)
    (messages : Fin rows → PyVal) (success : List (PyStr × Bool)) (st : State rows width)
    (idx : Fin rows) : Except PyErr (State rows width) :=
  match messages idx with
  | .list raw =>
    let old := total (st.rewards idx)
    if old < 1 ∧ anchored success (batch.taskKey py idx) = false then
      .ok { st with skipped_without_success := st.skipped_without_success + 1 }
    else do
      let taskId ← batch.taskIdAt py idx
      let (dense, calls) ← densifyTrajectory py judge config old raw taskId st.calls
      let st := { st with calls := calls }
      .ok (if old < 1 then st.rewriteRow idx (batch.response_mask idx) dense else st)
  | _ => .ok st

def meanReward (rewards : Tensor rows width ℚ) : PyFloat :=
  if rows = 0 then .nan else .fin ((∑ idx, total (rewards idx)) / rows)

/-- `enabled` is the flag `LLM_JUDGE_ENABLED`, `available` whether the judge can be imported. The
rewards come with the metrics. -/
def applyJudgeReward (py : Interp) (judge : Judge) (config : JudgeConfig) (enabled available : Bool)
    (rewards : Tensor rows width ℚ) (batch : Batch rows width) :
    Except PyErr (Tensor rows width ℚ × List (PyStr × PyFloat)) :=
  if !enabled then .ok (rewards, [])
  else if !available then .ok (rewards, [("judge/enabled", .fin 0)])
  else
    match batch.llm_judge_messages with
    | none => .ok (rewards, [("judge/enabled", .fin 1), ("judge/missing_messages", .fin 1)])
    | some messages => do
      let success := successByTask (batch.taskKey py) rewards
      let st ← (List.finRange rows).foldlM (judgeRow py judge config batch messages success)
        ⟨rewards, 0, 0, 0⟩
      .ok (st.rewards,
        [("judge/enabled", .fin 1), ("judge/judged_failures", .fin st.judged),
          ("judge/skipped_without_success_anchor", .fin st.skipped_without_success),
          ("judge/mean_reward", meanReward st.rewards)])

/-! ### Outcome anchoring -/

section Anchoring

variable {κ : Type} {alpha : ℚ} {key : Fin rows → κ} {mask : Tensor rows width ℤ}
  {before after : Tensor rows width ℚ}

/-- The group of row `i` has a success. -/
def HasAnchor (key : Fin rows → κ) (rewards : Tensor rows width ℚ) (i : Fin rows) : Prop :=
  ∃ j, key j = key i ∧ 1 ≤ total (rewards j)

/-- A row that holds a value of `[0, alpha]` at its last position in the mask and nothing else. -/
def Densified (alpha : ℚ) (mask : Fin width → ℤ) (row : Fin width → ℚ) : Prop :=
  ∃ p v, IsGreatest {q | mask q ≠ 0} p ∧ 0 ≤ v ∧ v ≤ alpha ∧ row = Pi.single p v

/-- What becomes of one row of a group that has a success or has none. -/
structure RowAnchored (alpha : ℚ) (mask : Fin width → ℤ) (hasAnchor : Prop)
    (before after : Fin width → ℚ) : Prop where
  success : 1 ≤ total before → after = before
  unanchored : ¬hasAnchor → after = before
  failed : total before < 1 → after = before ∨ Densified alpha mask after

/-- **Outcome anchoring of a batch**: row by row, and in the ranking of each group. -/
structure OutcomeAnchored (alpha : ℚ) (key : Fin rows → κ) (mask : Tensor rows width ℤ)
    (before after : Tensor rows width ℚ) : Prop where
  row : ∀ i, RowAnchored alpha (mask i) (HasAnchor key before i) (before i) (after i)
  ranking : ∀ i j, key i = key j → 1 ≤ total (before i) → total (before j) < 1 →
    total (after j) < total (after i)

theorem RowAnchored.refl {mask : Fin width → ℤ} {hasAnchor : Prop} {row : Fin width → ℚ} :
    RowAnchored alpha mask hasAnchor row row :=
  ⟨fun _ => rfl, fun _ => rfl, fun _ => .inl rfl⟩

/-- A failure stays below `1`. -/
theorem RowAnchored.total_lt {mask : Fin width → ℤ} {hasAnchor : Prop}
    {before after : Fin width → ℚ}
    (h : RowAnchored alpha mask hasAnchor before after) (ha : alpha < 1) (hb : total before < 1) :
    total after < 1 := by
  rcases h.failed hb with heq | ⟨p, v, -, -, hv, heq⟩
  · rw [heq]
    exact hb
  · rw [heq, total_single]
    exact lt_of_le_of_lt hv ha

/-- The ranking is a consequence of what becomes of the single rows. -/
theorem OutcomeAnchored.of_row (ha : alpha < 1)
    (h : ∀ i, RowAnchored alpha (mask i) (HasAnchor key before i) (before i) (after i)) :
    OutcomeAnchored alpha key mask before after where
  row := h
  ranking i j _ hi hj := by
    rw [(h i).success hi]
    exact lt_of_lt_of_le ((h j).total_lt ha hj) hi

end Anchoring

/-! ### Success detection -/

/-- Over the rows `l`, a key is marked when it was marked before or one of its rows succeeded. -/
theorem anchored_foldl (key : Fin rows → PyStr) (rewards : Tensor rows width ℚ)
    (l : List (Fin rows)) : ∀ (success : List (PyStr × Bool)) (k : PyStr),
      anchored (l.foldl (fun success idx => dictSet success (key idx)
        (anchored success (key idx) || decide (1 ≤ total (rewards idx)))) success) k = true ↔
      anchored success k = true ∨ ∃ j ∈ l, key j = k ∧ 1 ≤ total (rewards j) := by
  induction l with
  | nil => simp
  | cons a l ih =>
    intro success k
    rw [List.foldl_cons, ih, List.exists_mem_cons_iff, ← or_assoc]
    refine or_congr ?_ Iff.rfl
    by_cases hk : k = key a
    · subst hk
      simp [anchored, lookup_dictSet]
    · simp [anchored, lookup_dictSet, hk, show key a ≠ k from fun h => hk h.symm]

theorem anchored_successByTask (key : Fin rows → PyStr) (rewards : Tensor rows width ℚ)
    (i : Fin rows) :
    anchored (successByTask key rewards) (key i) = true ↔ HasAnchor key rewards i := by
  rw [successByTask, anchored_foldl]
  simp [anchored, HasAnchor]

theorem lastValid_eq_some {mask : Fin width → ℤ} {p : Fin width} (h : lastValid mask = some p) :
    IsGreatest {q | mask q ≠ 0} p := by
  obtain ⟨init, hinit⟩ := List.getLast?_eq_some_iff.mp h
  have hmem : ∀ q, mask q ≠ 0 ↔ q ∈ init ++ [p] := fun q => by simp [← hinit]
  refine ⟨(hmem p).mpr (by simp), fun q hq => ?_⟩
  -- the positions are listed in increasing order, so the last one is the greatest
  have hsorted : (init ++ [p]).Pairwise (· < ·) := by
    rw [← hinit]
    exact (List.pairwise_lt_finRange width).filter _
  rcases List.mem_append.mp ((hmem q).mp hq) with hq | hq
  · exact ((List.pairwise_append.mp hsorted).2.2 q hq p (by simp)).le
  · exact (List.mem_singleton.mp hq).le

/-! ### One row, all rows -/

theorem State.rewriteRow_of_ne (st : State rows width) {idx j : Fin rows} (hj : j ≠ idx)
    (mask : Fin width → ℤ) (dense : ℚ) :
    (st.rewriteRow idx mask dense).rewards j = st.rewards j := by
  rw [State.rewriteRow]
  split
  · exact Function.update_of_ne hj _ _
  · rfl

theorem State.rewriteRow_self (st : State rows width) (idx : Fin rows) (mask : Fin width → ℤ)
    (dense : ℚ) :
    (st.rewriteRow idx mask dense).rewards idx = st.rewards idx ∨
      ∃ p, IsGreatest {q | mask q ≠ 0} p ∧
        (st.rewriteRow idx mask dense).rewards idx = Pi.single p dense := by
  rw [State.rewriteRow]
  split
  · next last hlast => exact .inr ⟨last, lastValid_eq_some hlast, Function.update_self _ _ _⟩
  · exact .inl rfl

section Rows

variable {py : Interp} {judge : Judge} {config : JudgeConfig} {batch : Batch rows width}
  {messages : Fin rows → PyVal} {success : List (PyStr × Bool)}

/-- If row `i` is judged, being a failure with a history in a group that has a success, then its
history can be scored. -/
def RowScorable (py : Interp) (config : JudgeConfig) (batch : Batch rows width)
    (messages : Fin rows → PyVal) (success : List (PyStr × Bool)) (i : Fin rows)
    (row : Fin width → ℚ) : Prop :=
  ∀ raw, messages i = .list raw → total row < 1 → anchored success (batch.taskKey py i) = true →
    Scorable py config raw (batch.taskKey py i)

/-- **The round of one row** changes that row at most, and as outcome anchoring allows. -/
theorem judgeRow_sweep (ha : 0 ≤ config.alpha) :
    Sweep (judgeRow py judge config batch messages success) State.rewards fun i before after =>
      RowAnchored config.alpha (batch.response_mask i)
        (anchored success (batch.taskKey py i) = true) before after := by
  suffices h : ∀ {st idx st'}, judgeRow py judge config batch messages success st idx = .ok st' →
      (∀ j, j ≠ idx → st'.rewards j = st.rewards j) ∧
      RowAnchored config.alpha (batch.response_mask idx)
        (anchored success (batch.taskKey py idx) = true) (st.rewards idx) (st'.rewards idx) from
    ⟨fun hs => (h hs).1, fun hs => (h hs).2⟩
  intro st idx st' h
  have hsame : st'.rewards = st.rewards → (∀ j, j ≠ idx → st'.rewards j = st.rewards j) ∧
      RowAnchored config.alpha (batch.response_mask idx)
        (anchored success (batch.taskKey py idx) = true) (st.rewards idx) (st'.rewards idx) := by
    intro heq
    rw [heq]
    exact ⟨fun _ _ => rfl, .refl⟩
  rw [judgeRow] at h
  split at h
  · next raw =>
    by_cases hskip : total (st.rewards idx) < 1 ∧ anchored success (batch.taskKey py idx) = false
    · rw [if_pos hskip, Except.ok.injEq] at h
      exact hsame (by rw [← h])
    rw [if_neg hskip] at h
    obtain ⟨taskId, -, h⟩ := bind_eq_ok.mp h
    obtain ⟨⟨dense, calls⟩, hdense, h⟩ := bind_eq_ok.mp h
    rw [Except.ok.injEq] at h
    by_cases hold : total (st.rewards idx) < 1
    · -- the one branch that writes: the row of a failure in a group that has a success
      obtain ⟨h0, h1⟩ := densifyTrajectory_mem hold ha hdense
      rw [if_pos hold] at h
      rw [← h]
      refine ⟨fun j hj => State.rewriteRow_of_ne _ hj _ _, ?_⟩
      have hanchor : anchored success (batch.taskKey py idx) = true :=
        Bool.eq_true_of_not_eq_false fun hf => hskip ⟨hold, hf⟩
      refine ⟨fun hs => absurd hold (not_lt.mpr hs), fun hn => absurd hanchor hn, fun _ => ?_⟩
      rcases State.rewriteRow_self { st with calls := calls } idx (batch.response_mask idx) dense
        with heq | ⟨p, hp, heq⟩
      · exact .inl heq
      · exact .inr ⟨p, dense, hp, h0, h1, heq⟩
    · rw [if_neg hold] at h
      exact hsame (by rw [← h])
  · rw [Except.ok.injEq] at h
    exact hsame (by rw [← h])

/-- A round completes unless it judges a history that cannot be scored. -/
theorem judgeRow_ok_iff (hj : AnswersAccepted py judge) {ids : Fin rows → PyVal}
    (hids : batch.taskIds = some ids) (st : State rows width) (idx : Fin rows) :
    (∃ st', judgeRow py judge config batch messages success st idx = .ok st') ↔
      RowScorable py config batch messages success idx (st.rewards idx) := by
  have hkey : batch.taskIdAt py idx = .ok (batch.taskKey py idx) := by
    rw [Batch.taskIdAt, Batch.taskKey, hids]
  cases hm : messages idx with
  | list raw =>
    by_cases hold : total (st.rewards idx) < 1
    · cases hanchor : anchored success (batch.taskKey py idx) with
      | false => simp [judgeRow, RowScorable, hm, hold, hanchor]
      | true =>
        have hiff := densifyTrajectory_ok_iff hj config hold raw (batch.taskKey py idx) st.calls
        simp only [RowScorable, hm, PyVal.list.injEq, forall_eq', hold, hanchor,
          forall_const, ← hiff]
        cases hd : densifyTrajectory py judge config (total (st.rewards idx)) raw
            (batch.taskKey py idx) st.calls with
        | error e => simp [judgeRow, hm, hold, hanchor, hkey, hd, bind, Except.bind]
        | ok r => simp [judgeRow, hm, hold, hanchor, hkey, hd, bind, Except.bind]
    · have hsucc : 1 ≤ total (st.rewards idx) := not_lt.mp hold
      simp [judgeRow, RowScorable, hm, hold, hkey, densifyTrajectory, hsucc, bind, Except.bind]
  | _ => simp [judgeRow, RowScorable, hm]

end Rows

/-! ### The whole batch -/

/-- Every row that is judged has a history that can be scored. -/
def AllScorable (py : Interp) (config : JudgeConfig) (rewards : Tensor rows width ℚ)
    (batch : Batch rows width) : Prop :=
  ∀ messages, batch.llm_judge_messages = some messages → ∀ i raw, messages i = .list raw →
    total (rewards i) < 1 → HasAnchor (batch.taskKey py) rewards i →
    Scorable py config raw (batch.taskKey py i)

section Batch

variable {py : Interp} {judge : Judge} {config : JudgeConfig} {enabled available : Bool}
  {rewards : Tensor rows width ℚ} {batch : Batch rows width} {ids : Fin rows → PyVal}

/-- **Whatever is returned is outcome-anchored.** -/
theorem applyJudgeReward_anchored (ha : 0 ≤ config.alpha) (ha' : config.alpha < 1)
    {out : Tensor rows width ℚ} {metrics : List (PyStr × PyFloat)}
    (h : applyJudgeReward py judge config enabled available rewards batch = .ok (out, metrics)) :
    OutcomeAnchored config.alpha (batch.taskKey py) batch.response_mask rewards out := by
  refine .of_row ha' fun i => ?_
  have hsame : (rewards, metrics) = (out, metrics) → RowAnchored config.alpha
      (batch.response_mask i) (HasAnchor (batch.taskKey py) rewards i) (rewards i) (out i) := by
    intro heq
    rw [(Prod.mk.inj heq).1]
    exact .refl
  rw [applyJudgeReward] at h
  split at h
  · exact hsame (by simp_all)
  split at h
  · exact hsame (by simp_all)
  split at h
  · exact hsame (by simp_all)
  · obtain ⟨st, hrun, h⟩ := bind_eq_ok.mp h
    simp only [Except.ok.injEq, Prod.mk.injEq] at h
    rw [← anchored_successByTask, ← h.1]
    exact ((judgeRow_sweep ha).run (List.nodup_finRange rows) hrun i).1 (List.mem_finRange i)

/-- **When a batch is returned.** -/
theorem applyJudgeReward_ok_iff (hj : AnswersAccepted py judge) (ha : 0 ≤ config.alpha)
    (hids : batch.taskIds = some ids) :
    (∃ r, applyJudgeReward py judge config enabled available rewards batch = .ok r) ↔
      (enabled = true → available = true → AllScorable py config rewards batch) := by
  cases enabled with
  | false => simp [applyJudgeReward]
  | true =>
    cases available with
    | false => simp [applyJudgeReward]
    | true =>
      cases hm : batch.llm_judge_messages with
      | none => simp [applyJudgeReward, hm, AllScorable]
      | some messages =>
        have hround : ∀ st i, (∃ st', judgeRow py judge config batch messages
            (successByTask (batch.taskKey py) rewards) st i = .ok st') ↔ RowScorable py config
              batch messages (successByTask (batch.taskKey py) rewards) i (st.rewards i) :=
          fun st i => judgeRow_ok_iff hj hids st i
        have hrun := (judgeRow_sweep ha).run_ok_iff hround (List.nodup_finRange rows)
          ⟨rewards, 0, 0, 0⟩
        have hok : (∃ r, applyJudgeReward py judge config true true rewards batch = .ok r) ↔
            ∃ st, (List.finRange rows).foldlM (judgeRow py judge config batch messages
              (successByTask (batch.taskKey py) rewards)) ⟨rewards, 0, 0, 0⟩ = .ok st := by
          simp only [applyJudgeReward, hm, Bool.not_true, Bool.false_eq_true, if_false]
          exact exists_bind_ok
        rw [hok, hrun]
        simp only [List.mem_finRange, forall_const, RowScorable, AllScorable, hm,
          Option.some.injEq, forall_eq', anchored_successByTask]

/-- **The exact condition.** For a judge whose answers are accepted, the rewards come back
outcome-anchored if and only if every judged history can be scored. -/
theorem applyJudgeReward_anchored_iff (config : JudgeConfig) (hj : AnswersAccepted py judge)
    (ha : 0 ≤ config.alpha)
    (ha' : config.alpha < 1) (hids : batch.taskIds = some ids) :
    (∃ out metrics,
      applyJudgeReward py judge config enabled available rewards batch = .ok (out, metrics) ∧
      OutcomeAnchored config.alpha (batch.taskKey py) batch.response_mask rewards out) ↔
    (enabled = true → available = true → AllScorable py config rewards batch) := by
  rw [← applyJudgeReward_ok_iff hj ha hids]
  constructor
  · rintro ⟨out, metrics, h, -⟩
    exact ⟨_, h⟩
  · rintro ⟨⟨out, metrics⟩, h⟩
    exact ⟨out, metrics, h, applyJudgeReward_anchored ha ha' h⟩

end Batch

/-! ### A batch of two rows

One task, a success and a failure, and a judge that always gives `0.5`. -/

theorem sampleInterp_limit : 0 < 900 := by decide

/-- The interpreter, on the one step that `history []` has. -/
def sampleInterp : Interp where
  repr _ := "[]"
  floatRepr _ := "0.0"
  floatRepr_printable _ := by decide
  md5 _ := "fbc6a30e8187cabe1b81536f16a76381"
  lowercase := lower
  recursionLimit := 900
  recursionLimit_pos := sampleInterp_limit

def sampleJudge : Judge := fun _ _ => .ok "\x7b\"score\": 0.5\x7d"

/-- One assistant turn with these tool calls. -/
def history (calls : List PyVal) : List PyVal :=
  [.dict [("role", .str "assistant"), ("content", .str "All booked."), ("tool_calls", .list calls)]]

def sampleRewards : Tensor 2 2 ℚ := ![![0, 1], ![0, 0]]

def sampleBatch (calls : List PyVal) : Batch 2 2 where
  response_mask := ![![1, 1], ![1, 0]]
  llm_judge_messages := some fun _ => .list (history calls)
  task_id := some fun _ => .str "1"
  uid := none

theorem sampleJudge_accepted : AnswersAccepted sampleInterp sampleJudge where
  text _ _ text h := by
    rw [sampleJudge, Except.ok.injEq] at h
    rw [← h]
    exact ⟨1 / 2, by decide +kernel⟩
  failure _ _ e h := by simp [sampleJudge] at h

theorem history_scorable : Scorable sampleInterp {} (history []) "1" where
  calls items hi _ := by
    rw [history, List.mem_singleton, PyVal.dict.injEq] at hi
    rw [hi]
    exact ⟨[], by decide, by simp⟩
  text steps hs := by
    have hsteps : judgedSteps sampleInterp {} (history []) = .ok [⟨"All booked.", [], []⟩] := rfl
    rw [hsteps, Except.ok.injEq] at hs
    rw [← hs, List.forall_mem_singleton]
    decide

theorem applyJudgeReward_anchored_sample : ∃ out metrics,
    applyJudgeReward sampleInterp sampleJudge {} true true sampleRewards (sampleBatch []) =
      .ok (out, metrics) ∧
    OutcomeAnchored (1 / 5) ((sampleBatch []).taskKey sampleInterp) (sampleBatch []).response_mask
      sampleRewards out :=
  (applyJudgeReward_anchored_iff {} sampleJudge_accepted (by decide +kernel) (by decide +kernel)
    (show (sampleBatch []).taskIds = some fun _ => .str "1" from rfl)).mpr
      fun _ _ messages hm i raw hraw _ _ => by
    simp only [sampleBatch, Option.some.injEq] at hm
    rw [← hm, PyVal.list.injEq] at hraw
    rw [← hraw]
    exact history_scorable

/-- A tool call whose `function` is `null`, in the failed row of a group that has a success: the
call raises and the whole batch is without a reward. -/
theorem applyJudgeReward_raises_sample :
    AnswersAccepted sampleInterp sampleJudge ∧ (sampleBatch [.dict [("function", .null)]]).taskIds =
      some (fun _ => .str "1") ∧
    ¬∃ out metrics, applyJudgeReward sampleInterp sampleJudge {} true true sampleRewards
        (sampleBatch [.dict [("function", .null)]]) = .ok (out, metrics) ∧
      OutcomeAnchored (1 / 5) ((sampleBatch [.dict [("function", .null)]]).taskKey sampleInterp)
        (sampleBatch [.dict [("function", .null)]]).response_mask sampleRewards out := by
  have hraise : applyJudgeReward sampleInterp sampleJudge {} true true sampleRewards
      (sampleBatch [.dict [("function", .null)]]) =
      .error ⟨.attributeError, "'NoneType' object has no attribute 'get'"⟩ := by
    decide +kernel
  refine ⟨sampleJudge_accepted, rfl, ?_⟩
  rintro ⟨out, metrics, h, -⟩
  rw [hraise] at h
  cases h

end JudgeReward

end ToolAgent
