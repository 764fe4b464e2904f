import ToolAgent.Library.Grouping
import ToolAgent.Python.Value
import Mathlib.Algebra.BigOperators.Ring.Finset
import Mathlib.Data.Fin.VecNotation
import Mathlib.Data.List.FinRange
import Mathlib.Tactic.Ring

/-!
# Adaptive rollout rounds

`_generate_b_ndsr_batch` of `verl.trainer.ppo.ray_trainer` draws the rollouts of a batch of prompts
in rounds of `4`, `2` and `2`. After each round it decides which prompts go on.

## Rollouts

The rollout manager answers a round with one rollout for each row of the round. Its answers are a
function of the prompt and of the number of rollouts drawn from that prompt before, which covers
every assignment of scores to the rollouts drawn. A batch is a list of rollouts: `slice` selects
rows, `union` and `concat` put rows together.

## What the rounds do

The test that keeps a prompt active looks at every prompt, and a group that is smaller than the
round size counts as unfinished. So a prompt that was finished after round one comes back in
round three whenever some other prompt made round two happen. The sizes of the groups are
therefore `4` throughout, or `6` and `8`.

## Main definitions

* `generateBNdsrBatch` — the function
* `budget` — the number of rollouts a prompt should get by its own scores
* `Drawn` — the rows of a batch, prompt by prompt

## Main results

* `generateBNdsrBatch_drawn` — the batch that is returned, prompt by prompt
* `generateBNdsrBatch_budget_iff` — when it has the budgeted number of rollouts for each prompt
* `updateActor_assert_iff` — when it can be cut into the mini-batches of the actor update
-/

namespace ToolAgent

namespace Rounds

open Python Grouping

variable {n : ℕ} {α : Type} [DecidableEq α]

/-! ### The rollout manager -/

/-- A row of a round's output: the prompt it was drawn for and its reward tensor. -/
structure Rollout (n : ℕ) where
  prompt : Fin n
  /-- The number of earlier rollouts of the same prompt. -/
  draw : ℕ
  rm_scores : List ℚ
  deriving DecidableEq

/-- `raw_scores[i].sum(-1)`. -/
def Rollout.score (r : Rollout n) : ℚ := r.rm_scores.sum

/-- The reward tensor of each rollout of each prompt. -/
abbrev Sampler (n : ℕ) := Fin n → ℕ → List ℚ

/-- The rollout of prompt `i` with `k` rollouts of it before. -/
def rollout (sampler : Sampler n) (i : Fin n) (k : ℕ) : Rollout n := ⟨i, k, sampler i k⟩

/-- One rollout for each row of a round, after the rollouts `before`. -/
def generateSequences (sampler : Sampler n) (before : List (Rollout n)) :
    List (Fin n) → List (Rollout n)
  | [] => []
  | i :: round =>
    let r := rollout sampler i (group Rollout.prompt i before).length
    r :: generateSequences sampler (before ++ [r]) round

/-! ### The rounds -/

/-- The prompts that go on after the round of size `round_size`. -/
def nextActive (uid : Fin n → α) (round_size : ℕ) (candidate : List (Rollout n)) : List (Fin n) :=
  (List.finRange n).filter fun prompt_index =>
    let scores := (group (fun r : Rollout n => uid r.prompt) (uid prompt_index) candidate).map
      Rollout.score
    (decide (scores.length < round_size) && decide (round_size < 8)) ||
      (!scores.isEmpty && scores.all (fun score => decide (score < 1 / 2)) &&
        decide (round_size < 8))

/-- The loop over `(round_size, increment)`. The rounds are collected as a list of batches. -/
def roundLoop (sampler : Sampler n) (uid : Fin n → α) (collected : List (List (Rollout n)))
    (active : List (Fin n)) : List (ℕ × ℕ) → List (List (Rollout n))
  | [] => collected
  | (round_size, increment) :: rounds =>
    if active = [] then collected
    else
      let repeat_times := if 4 < round_size then increment else 4
      let prompt_indices := if round_size = 4 then List.finRange n else active
      let round_batch := generateSequences sampler collected.flatten
        (repeatInterleave repeat_times prompt_indices)
      let collected := collected ++ [round_batch]
      roundLoop sampler uid collected (nextActive uid round_size collected.flatten) rounds

/-- `DataProto.concat` looks at its first batch. -/
def concat {ρ : Type} : List (List ρ) → Except PyErr (List ρ)
  | [] => throw .indexError "list index out of range"
  | batch :: batches => .ok (batch :: batches).flatten

def generateBNdsrBatch (sampler : Sampler n) (uid : Fin n → α) : Except PyErr (List (Rollout n)) :=
  concat (roundLoop sampler uid [] (List.finRange n) [(4, 4), (6, 2), (8, 2)])

/-! ### Budgets -/

/-- One of the first `m` rollouts of prompt `i` has a score of at least `1 / 2`. -/
def succeedsWithin (sampler : Sampler n) (i : Fin n) (m : ℕ) : Bool :=
  (List.range m).any fun k => decide (1 / 2 ≤ (rollout sampler i k).score)

/-- Four rollouts, two more after four failures, and two more after six. -/
def budget (sampler : Sampler n) (i : Fin n) : ℕ :=
  if succeedsWithin sampler i 4 then 4 else if succeedsWithin sampler i 6 then 6 else 8

theorem succeedsWithin_mono {sampler : Sampler n} {i : Fin n} {m m' : ℕ} (hm : m ≤ m')
    (h : succeedsWithin sampler i m = true) : succeedsWithin sampler i m' = true := by
  rw [succeedsWithin, List.any_eq_true] at h ⊢
  obtain ⟨k, hk, hs⟩ := h
  exact ⟨k, List.mem_range.mpr (lt_of_lt_of_le (List.mem_range.mp hk) hm), hs⟩

/-! ### What a batch contains -/

/-- Prompt by prompt, the batch has the first `c i` rollouts of prompt `i`, in order. -/
def Drawn (sampler : Sampler n) (rows : List (Rollout n)) (c : Fin n → ℕ) : Prop :=
  ∀ i, group Rollout.prompt i rows = (List.range (c i)).map (rollout sampler i)

theorem Drawn.congr {sampler : Sampler n} {rows : List (Rollout n)} {c c' : Fin n → ℕ}
    (h : Drawn sampler rows c) (hc : ∀ i, c i = c' i) : Drawn sampler rows c' := fun i => by
  rw [h i, hc i]

theorem drawn_nil (sampler : Sampler n) : Drawn sampler [] 0 := fun _ => rfl

/-- One more rollout. -/
theorem Drawn.concat {sampler : Sampler n} {rows : List (Rollout n)} {c : Fin n → ℕ}
    (h : Drawn sampler rows c) (i : Fin n) :
    Drawn sampler (rows ++ [rollout sampler i (group Rollout.prompt i rows).length])
      (c + Pi.single i 1) := by
  intro j
  have hlen : (group Rollout.prompt i rows).length = c i := by rw [h i]; simp
  rw [group_append, h j, hlen]
  by_cases hj : j = i
  · subst hj
    rw [Pi.add_apply, Pi.single_eq_same, List.range_succ, List.map_append]
    exact congrArg _ (group_cons_self Rollout.prompt _ [])
  · rw [Pi.add_apply, Pi.single_eq_of_ne hj, Nat.add_zero,
      group_cons_of_ne (show i ≠ j from fun h => hj h.symm)]
    exact List.append_nil _

/-- **One round**: each prompt gets as many further rollouts as it has rows in the round. -/
theorem Drawn.generate {sampler : Sampler n} (round : List (Fin n)) :
    ∀ {rows : List (Rollout n)} {c : Fin n → ℕ}, Drawn sampler rows c →
      Drawn sampler (rows ++ generateSequences sampler rows round) fun i =>
        c i + round.count i := by
  induction round with
  | nil =>
    intro rows c h
    simpa [generateSequences] using h
  | cons a round ih =>
    intro rows c h
    have hrest := ih (h.concat a)
    rw [List.append_assoc, List.singleton_append] at hrest
    refine hrest.congr fun i => ?_
    rw [List.count_cons, Pi.add_apply]
    by_cases hi : i = a
    · rw [hi, Pi.single_eq_same, beq_self_eq_true, if_pos rfl]
      omega
    · simp [show a ≠ i from fun h => hi h.symm]

/-- Drawing `k` rollouts for each of the prompts `idx`. -/
theorem Drawn.round {sampler : Sampler n} {rows : List (Rollout n)} {c : Fin n → ℕ}
    (h : Drawn sampler rows c) (k : ℕ) {idx : List (Fin n)} (hidx : idx.Nodup) :
    Drawn sampler (rows ++ generateSequences sampler rows (repeatInterleave k idx))
      fun i => c i + if i ∈ idx then k else 0 := by
  refine (Drawn.generate (repeatInterleave k idx) h).congr fun i => ?_
  rw [count_repeatInterleave, hidx.count]
  split <;> simp

/-- The rows under a uid are the rows of its prompt. -/
theorem group_uid {uid : Fin n → α} (huid : Function.Injective uid) (i : Fin n)
    (rows : List (Rollout n)) :
    group (fun r : Rollout n => uid r.prompt) (uid i) rows = group Rollout.prompt i rows := by
  simp [group, huid.eq_iff]

/-- **Who goes on**: the prompts whose groups are smaller than the round size, and those without
a success. -/
theorem mem_nextActive {sampler : Sampler n} {rows : List (Rollout n)} {c : Fin n → ℕ}
    (h : Drawn sampler rows c) {uid : Fin n → α} (huid : Function.Injective uid)
    {round_size : ℕ} (hsize : round_size < 8) (i : Fin n) :
    i ∈ nextActive uid round_size rows ↔
      c i < round_size ∨ (0 < c i ∧ succeedsWithin sampler i (c i) = false) := by
  have hfail : succeedsWithin sampler i (c i) = false ↔
      ∀ k < c i, (rollout sampler i k).score < 1 / 2 := by
    simp [succeedsWithin]
  rw [nextActive, List.mem_filter, group_uid huid, h i, hfail]
  simp [hsize, Nat.pos_iff_ne_zero]

theorem nextActive_nodup (uid : Fin n → α) (round_size : ℕ) (rows : List (Rollout n)) :
    (nextActive uid round_size rows).Nodup :=
  (List.nodup_finRange n).filter _

/-! ### The three rounds -/

section Rounds

variable {sampler : Sampler n} {uid : Fin n → α}

/-- The sizes of the groups: `4` throughout when every prompt succeeds at once, else `6` and `8`. -/
def drawnCount (sampler : Sampler n) (i : Fin n) : ℕ :=
  if ∀ j, succeedsWithin sampler j 4 then 4 else if succeedsWithin sampler i 6 then 6 else 8

/-- **A round of the loop** with prompts left: the rows of `idx` are drawn `k` times, and the loop
goes on with whoever is active after that. -/
theorem roundLoop_round (uid : Fin n → α) {collected : List (List (Rollout n))} {c : Fin n → ℕ}
    {active : List (Fin n)} (round_size increment k : ℕ) (idx : List (Fin n))
    (rounds : List (ℕ × ℕ)) (h : Drawn sampler collected.flatten c) (hactive : active ≠ [])
    (hk : (if 4 < round_size then increment else 4) = k)
    (hidx : (if round_size = 4 then List.finRange n else active) = idx) (hnodup : idx.Nodup) :
    ∃ collected', collected' ≠ [] ∧
      Drawn sampler collected'.flatten (fun i => c i + if i ∈ idx then k else 0) ∧
      roundLoop sampler uid collected active ((round_size, increment) :: rounds) =
        roundLoop sampler uid collected' (nextActive uid round_size collected'.flatten) rounds := by
  refine ⟨collected ++ [generateSequences sampler collected.flatten (repeatInterleave k idx)],
    by simp, ?_, ?_⟩
  · rw [List.flatten_append, List.flatten_singleton]
    exact h.round k hnodup
  · rw [roundLoop, if_neg hactive, hk, hidx]

theorem roundLoop_nil_active (collected : List (List (Rollout n))) (rounds : List (ℕ × ℕ)) :
    roundLoop sampler uid collected [] rounds = collected := by
  cases rounds <;> simp [roundLoop]

theorem concat_of_ne_nil {ρ : Type} {batches : List (List ρ)} (h : batches ≠ []) :
    concat batches = .ok batches.flatten := by
  cases batches with
  | nil => exact absurd rfl h
  | cons batch batches => rfl

/-- **The batch that is returned.** -/
theorem generateBNdsrBatch_drawn (sampler : Sampler n) (hn : n ≠ 0)
    (huid : Function.Injective uid) :
    ∃ out, generateBNdsrBatch sampler uid = .ok out ∧ Drawn sampler out (drawnCount sampler) := by
  have hall : List.finRange n ≠ [] := by simpa using hn
  have hempty : Drawn sampler ([] : List (List (Rollout n))).flatten 0 := drawn_nil sampler
  -- round one: four rollouts for each prompt
  obtain ⟨batches₁, hne₁, h₁, hloop₁⟩ := roundLoop_round uid 4 4 4 (List.finRange n)
    [(6, 2), (8, 2)] hempty hall rfl rfl (List.nodup_finRange n)
  simp only [List.mem_finRange, if_true, Pi.zero_apply, Nat.zero_add] at h₁
  have hactive₁ : ∀ i, i ∈ nextActive uid 4 batches₁.flatten ↔
      succeedsWithin sampler i 4 = false := fun i => by
    rw [mem_nextActive h₁ huid (by omega)]
    simp
  rw [generateBNdsrBatch, hloop₁]
  by_cases heasy : ∀ j, succeedsWithin sampler j 4 = true
  · -- every prompt has succeeded: the loop is left after round one
    have hnil : nextActive uid 4 batches₁.flatten = [] :=
      List.eq_nil_iff_forall_not_mem.mpr fun i hi => by
        have hfail := (hactive₁ i).mp hi
        rw [heasy i] at hfail
        cases hfail
    rw [hnil, roundLoop_nil_active, concat_of_ne_nil hne₁]
    exact ⟨_, rfl, h₁.congr fun i => by rw [drawnCount, if_pos heasy]⟩
  · obtain ⟨j, hj⟩ := not_forall.mp heasy
    have hne : nextActive uid 4 batches₁.flatten ≠ [] :=
      List.ne_nil_of_mem ((hactive₁ j).mpr (by simpa using hj))
    -- round two: two more for each prompt without a success
    obtain ⟨batches₂, hne₂, h₂, hloop₂⟩ := roundLoop_round uid 6 2 2
      (nextActive uid 4 batches₁.flatten) [(8, 2)] h₁ hne rfl rfl (nextActive_nodup uid 4 _)
    simp only [hactive₁] at h₂
    have hactive₂ : ∀ i, i ∈ nextActive uid 6 batches₂.flatten ↔
        (succeedsWithin sampler i 4 = true ∨ succeedsWithin sampler i 6 = false) := fun i => by
      rw [mem_nextActive h₂ huid (by omega)]
      cases h4 : succeedsWithin sampler i 4 <;> simp
    rw [hloop₂]
    by_cases hnil : nextActive uid 6 batches₂.flatten = []
    · rw [hnil, roundLoop_nil_active, concat_of_ne_nil hne₂]
      refine ⟨_, rfl, h₂.congr fun i => ?_⟩
      have hi := (hactive₂ i).not.mp (by simp [hnil])
      rw [not_or, Bool.not_eq_true, Bool.not_eq_false] at hi
      rw [drawnCount, if_neg heasy, if_pos hi.1, if_pos hi.2]
    · -- round three: two more for each prompt of four rollouts and each without a success
      obtain ⟨batches₃, hne₃, h₃, hloop₃⟩ := roundLoop_round uid 8 2 2
        (nextActive uid 6 batches₂.flatten) [] h₂ hnil rfl rfl (nextActive_nodup uid 6 _)
      simp only [hactive₂] at h₃
      rw [hloop₃, roundLoop, concat_of_ne_nil hne₃]
      refine ⟨_, rfl, h₃.congr fun i => ?_⟩
      rw [drawnCount, if_neg heasy]
      cases h4 : succeedsWithin sampler i 4 with
      | true => simp [succeedsWithin_mono (show 4 ≤ 6 by omega) h4]
      | false => cases h6 : succeedsWithin sampler i 6 <;> simp

/-- A batch without prompts has no round, and `concat` fails on it. -/
theorem generateBNdsrBatch_no_prompt (sampler : Sampler n) (uid : Fin n → α) (hn : n = 0) :
    ∃ e, generateBNdsrBatch sampler uid = .error e := by
  subst hn
  exact ⟨_, rfl⟩

theorem Drawn.length_group {rows : List (Rollout n)} {c : Fin n → ℕ} (h : Drawn sampler rows c)
    (huid : Function.Injective uid) (i : Fin n) :
    (group (fun r : Rollout n => uid r.prompt) (uid i) rows).length = c i := by
  rw [group_uid huid, h i]
  simp

/-- **Group sizes and budgets.** The batch has the budgeted number of rollouts for each prompt if
and only if there is a prompt, and the prompts agree on whether they succeed in round one. -/
theorem generateBNdsrBatch_budget_iff (sampler : Sampler n) (huid : Function.Injective uid) :
    (∃ out, generateBNdsrBatch sampler uid = .ok out ∧ ∀ i,
      (group (fun r : Rollout n => uid r.prompt) (uid i) out).length = budget sampler i) ↔
    n ≠ 0 ∧ ((∀ i, succeedsWithin sampler i 4 = true) ∨
      ∀ i, succeedsWithin sampler i 4 = false) := by
  by_cases hn : n = 0
  · obtain ⟨e, he⟩ := generateBNdsrBatch_no_prompt sampler uid hn
    simp [he, hn]
  obtain ⟨out, hout, hdrawn⟩ := generateBNdsrBatch_drawn sampler hn huid
  have hiff : (∃ out, generateBNdsrBatch sampler uid = .ok out ∧ ∀ i,
      (group (fun r : Rollout n => uid r.prompt) (uid i) out).length = budget sampler i) ↔
      ∀ i, drawnCount sampler i = budget sampler i := by
    rw [hout]
    simp only [Except.ok.injEq, exists_eq_left', hdrawn.length_group huid]
  rw [hiff]
  simp only [hn, ne_eq, not_false_eq_true, true_and, drawnCount, budget]
  by_cases heasy : ∀ j, succeedsWithin sampler j 4 = true
  · simp [heasy]
  · -- some prompt goes on, and any prompt that does not gets two rollouts too many
    simp only [heasy, false_or, if_false]
    refine forall_congr' fun i => ?_
    cases h4 : succeedsWithin sampler i 4 with
    | true => simp [succeedsWithin_mono (show 4 ≤ 6 by omega) h4]
    | false => simp

/-- Prompts that succeed with every rollout, or with none. -/
def sampleSampler (easy : Fin n → Bool) : Sampler n := fun i _ => if easy i then [0, 1] else [0, 0]

/-- Two hard prompts get eight rollouts each. With an easy one among three, somebody gets more than
its budget. -/
theorem generateBNdsrBatch_budget_sample :
    (∃ out, generateBNdsrBatch (sampleSampler ![false, false]) (Fin.val : Fin 2 → ℕ) = .ok out ∧
      ∀ i, (group (fun r : Rollout 2 => r.prompt.val) i.val out).length =
        budget (sampleSampler ![false, false]) i) ∧
    (∀ i, budget (sampleSampler ![false, false]) i = 8) ∧
    ¬∃ out, generateBNdsrBatch (sampleSampler ![false, true, false]) (Fin.val : Fin 3 → ℕ) = .ok out ∧
      ∀ i, (group (fun r : Rollout 3 => r.prompt.val) i.val out).length =
        budget (sampleSampler ![false, true, false]) i := by
  refine ⟨(generateBNdsrBatch_budget_iff (sampleSampler ![false, false]) Fin.val_injective).mpr
    ⟨by decide, .inr (by decide +kernel)⟩, by decide +kernel, fun h => ?_⟩
  have hsame := ((generateBNdsrBatch_budget_iff (sampleSampler ![false, true, false])
    Fin.val_injective).mp h).2
  exact absurd hsame (by decide +kernel)

/-- An easy prompt next to a hard one: it gets six rollouts, not four. -/
theorem generateBNdsrBatch_mixed : Function.Injective (Fin.val : Fin 2 → ℕ) ∧
    ¬∃ out, generateBNdsrBatch (sampleSampler ![true, false]) (Fin.val : Fin 2 → ℕ) = .ok out ∧
      ∀ i, (group (fun r : Rollout 2 => r.prompt.val) i.val out).length =
        budget (sampleSampler ![true, false]) i := by
  refine ⟨Fin.val_injective, ?_⟩
  rintro ⟨out, hout, hbudget⟩
  have hsix : (generateBNdsrBatch (sampleSampler ![true, false]) (Fin.val : Fin 2 → ℕ)).map
      (fun out => (group (fun r : Rollout 2 => r.prompt.val) 0 out).length) = .ok 6 := by
    decide +kernel
  rw [hout] at hsix
  have hfour : budget (sampleSampler ![true, false]) 0 = 4 := by decide +kernel
  have hlen : (group (fun r : Rollout 2 => r.prompt.val) 0 out).length = 6 := Except.ok.inj hsix
  have hzero := hbudget 0
  rw [hfour] at hzero
  exact absurd (hzero.symm.trans hlen) (by omega)

/-! ### Cutting the batch into mini-batches -/

theorem drawnCount_add (i : Fin n) (hmixed : ¬∀ j, succeedsWithin sampler j 4 = true) :
    drawnCount sampler i + 2 * (if succeedsWithin sampler i 6 then 1 else 0) = 8 := by
  rw [drawnCount, if_neg hmixed]
  split <;> rfl

/-- The number of prompts with a success among the first six rollouts. -/
def quickPrompts (sampler : Sampler n) : ℕ :=
  (Finset.univ.filter fun i => succeedsWithin sampler i 6 = true).card

/-- **The number of rows**: four for each prompt, or two short of eight for each prompt that
succeeds within six. -/
theorem length_of_drawn {out : List (Rollout n)} (h : Drawn sampler out (drawnCount sampler)) :
    if ∀ j, succeedsWithin sampler j 4 = true then out.length = 4 * n
    else out.length + 2 * quickPrompts sampler = 8 * n := by
  have hsum : out.length = ∑ i, drawnCount sampler i := by
    rw [length_eq_sum_group Rollout.prompt id Function.injective_id fun r _ => ⟨r.prompt, rfl⟩]
    exact Finset.sum_congr rfl fun i _ => by rw [id, h i]; simp
  split
  · next heasy => simp [hsum, drawnCount, heasy, Nat.mul_comm]
  · next hmixed =>
    rw [hsum, quickPrompts, Finset.card_filter, Finset.mul_sum, ← Finset.sum_add_distrib,
      Finset.sum_congr rfl fun i _ => drawnCount_add i hmixed]
    simp [Nat.mul_comm]

end Rounds

/-- `make_iterator`: the mini-batches of one pass over the rows. -/
def makeIterator {ρ : Type} (rows : List ρ) (mini_batch_size : ℕ) : Except PyErr (List (List ρ)) :=
  if mini_batch_size = 0 then throw .zeroDivisionError "integer modulo by zero"
  else if rows.length % mini_batch_size = 0 then .ok (rows.toChunks mini_batch_size)
  else .error ⟨.assertionError, PyStr.ofString (toString rows.length) ++ " % " ++
    PyStr.ofString (toString mini_batch_size) ++ " != 0"⟩

/-- `_update_actor`, up to the mini-batches of `train_mini_batch`. -/
def updateActor {ρ : Type} (rows : List ρ) (ppo_mini_batch_size rollout_n dp_size : ℕ) :
    Except PyErr (List (List ρ)) :=
  let mini_batch_size := ppo_mini_batch_size * rollout_n
  if mini_batch_size % dp_size = 0 then makeIterator rows (mini_batch_size / dp_size)
  else throw .assertionError "Got mini_batch_size and data_parallel_size"

theorem updateActor_ok_iff {ρ : Type} (rows : List ρ) {mb : ℕ} (hmb : mb ≠ 0) :
    (∃ batches, updateActor rows mb 8 1 = .ok batches) ↔ 8 * mb ∣ rows.length := by
  have hne : mb * 8 ≠ 0 := by omega
  rw [updateActor, if_pos (Nat.mod_one _), Nat.div_one, makeIterator, if_neg hne, Nat.mul_comm 8,
    Nat.dvd_iff_mod_eq_zero]
  by_cases h : rows.length % (mb * 8) = 0
  · rw [if_pos h]
    exact iff_of_true ⟨_, rfl⟩ h
  · rw [if_neg h]
    exact iff_of_false (fun ⟨_, hb⟩ => by cases hb) h

/-- **Training on the batch.** With a whole number of mini-batches of prompts, the divisibility
assertion holds if and only if there is a prompt and the numbers happen to fit. -/
theorem updateActor_assert_iff (sampler : Sampler n) {uid : Fin n → α}
    (huid : Function.Injective uid) {ppo_mini_batch_size : ℕ} (hmb : ppo_mini_batch_size ∣ n) :
    (∃ out, generateBNdsrBatch sampler uid = .ok out ∧
      ∃ batches, updateActor out ppo_mini_batch_size 8 1 = .ok batches) ↔
    n ≠ 0 ∧ if ∀ i, succeedsWithin sampler i 4 = true then 2 * ppo_mini_batch_size ∣ n
      else 4 * ppo_mini_batch_size ∣ quickPrompts sampler := by
  by_cases hn : n = 0
  · obtain ⟨e, he⟩ := generateBNdsrBatch_no_prompt sampler uid hn
    simp [he, hn]
  obtain ⟨out, hout, hdrawn⟩ := generateBNdsrBatch_drawn sampler hn huid
  have hne : ppo_mini_batch_size ≠ 0 := fun h0 => hn (Nat.eq_zero_of_zero_dvd (h0 ▸ hmb))
  have hlen := length_of_drawn hdrawn
  simp only [hout, Except.ok.injEq, exists_eq_left', updateActor_ok_iff out hne, ne_eq, hn,
    not_false_eq_true, true_and]
  split at hlen
  · next heasy =>
    rw [if_pos heasy, hlen, show 8 * ppo_mini_batch_size = 4 * (2 * ppo_mini_batch_size) by ring]
    exact Nat.mul_dvd_mul_iff_left (by omega)
  · next hmixed =>
    have h8 : 8 * ppo_mini_batch_size ∣ out.length + 2 * quickPrompts sampler := by
      rw [hlen]
      exact Nat.mul_dvd_mul_left 8 hmb
    have hsplit : 8 * ppo_mini_batch_size ∣ out.length ↔
        8 * ppo_mini_batch_size ∣ 2 * quickPrompts sampler :=
      ⟨fun ha => (Nat.dvd_add_right ha).mp h8, fun hb => (Nat.dvd_add_left hb).mp h8⟩
    rw [if_neg hmixed, hsplit, show 8 * ppo_mini_batch_size = 2 * (4 * ppo_mini_batch_size) by ring]
    exact Nat.mul_dvd_mul_iff_left (by omega)

/-- Two hard prompts give sixteen rows. An easy one and a hard one give fourteen. -/
theorem updateActor_assert_sample :
    (∃ out, generateBNdsrBatch (sampleSampler ![false, false]) (Fin.val : Fin 2 → ℕ) = .ok out ∧
      ∃ batches, updateActor out 2 8 1 = .ok batches) ∧
    ¬∃ out, generateBNdsrBatch (sampleSampler ![true, false]) (Fin.val : Fin 2 → ℕ) = .ok out ∧
      ∃ batches, updateActor out 2 8 1 = .ok batches := by
  refine ⟨(updateActor_assert_iff (sampleSampler ![false, false]) Fin.val_injective (by omega)).mpr
    ⟨by decide, by decide +kernel⟩, fun h => ?_⟩
  have hfits := ((updateActor_assert_iff (sampleSampler ![true, false]) Fin.val_injective
    (by omega)).mp h).2
  exact absurd hfits (by decide +kernel)

/-- Two easy prompts and mini-batches of two: eight rows are not a multiple of sixteen. -/
theorem updateActor_easy : Function.Injective (Fin.val : Fin 2 → ℕ) ∧ 2 ∣ 2 ∧
    ¬∃ out, generateBNdsrBatch (sampleSampler ![true, true]) (Fin.val : Fin 2 → ℕ) = .ok out ∧
      ∃ batches, updateActor out 2 8 1 = .ok batches := by
  refine ⟨Fin.val_injective, by omega, ?_⟩
  rintro ⟨out, hout, batches, hbatches⟩
  have hraise : (generateBNdsrBatch (sampleSampler ![true, true]) (Fin.val : Fin 2 → ℕ)) >>=
      (fun out => updateActor out 2 8 1) = .error ⟨.assertionError, "8 % 16 != 0"⟩ := by
    decide +kernel
  rw [hout] at hraise
  exact absurd (hbatches.symm.trans hraise) (by simp)

end Rounds

end ToolAgent
