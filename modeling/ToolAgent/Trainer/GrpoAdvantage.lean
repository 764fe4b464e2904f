import ToolAgent.Library.Baseline
import ToolAgent.Trainer.JudgeReward

/-!
# Group relative advantages

`compute_grpo_outcome_advantage` of `verl.trainer.ppo.core_algos`: the score of a response is the
sum of its rewards, and its advantage the deviation of the score from the mean of the group, in
units of the standard deviation of the group if wanted, on the tokens that the model has generated.

Rewards are exact rationals. The standard deviation is a parameter, which is only known not to be
negative: whatever is rounded in it, it is the same for the whole group.

## Main definitions

* `computeGrpoOutcomeAdvantage` — the function
* `GroupRelative` — what advantages say about the groups

## Main results

* `computeGrpoOutcomeAdvantage_relative` — the advantages are group relative
* `judged_advantage_lt` — with the rewards of the judge a success is still ahead of every failure
-/

namespace ToolAgent

namespace Grpo

open Python JudgeReward LlmJudge

variable {rows width : ℕ} {α : Type} [DecidableEq α]

/-! ### The function -/

/-- The rows of a group, in their order. -/
def group (index : Fin rows → α) (idx : α) : List (Fin rows) :=
  (List.finRange rows).filter fun i => index i = idx

/-- `id2score[idx]` -/
def id2score (token_level_rewards : Tensor rows width ℚ) (index : Fin rows → α)
    (idx : α) : List ℚ :=
  (group index idx).map fun i => total (token_level_rewards i)

/-- A response that is alone in its group is compared with zero. -/
def id2mean (scores : List ℚ) : ℚ :=
  match scores with
  | [_] => 0
  | _ => Baseline.mean scores

/-- The parameters, with `torch.std`. -/
structure Normalization where
  std : List ℚ → ℚ
  std_nonneg : ∀ scores, 0 ≤ std scores
  epsilon : ℚ
  epsilon_pos : 0 < epsilon
  norm_adv_by_std_in_grpo : Bool

def id2std (std : List ℚ → ℚ) (scores : List ℚ) : ℚ :=
  match scores with
  | [_] => 1
  | _ => std scores

/-- The score of a row after the second loop. -/
def normalized (n : Normalization) (token_level_rewards : Tensor rows width ℚ)
    (index : Fin rows → α)
    (i : Fin rows) : ℚ :=
  let scores := id2score token_level_rewards index (index i)
  if n.norm_adv_by_std_in_grpo then
    (total (token_level_rewards i) - id2mean scores) / (id2std n.std scores + n.epsilon)
  else total (token_level_rewards i) - id2mean scores

/-- The advantages, which are returned as the returns as well. -/
def computeGrpoOutcomeAdvantage (n : Normalization) (token_level_rewards : Tensor rows width ℚ)
    (response_mask : Tensor rows width ℤ) (index : Fin rows → α) :
    Tensor rows width ℚ × Tensor rows width ℚ :=
  let scores := fun i t => normalized n token_level_rewards index i * response_mask i t
  (scores, scores)

/-! ### Groups -/

variable {n : Normalization} {rewards : Tensor rows width ℚ} {index : Fin rows → α} {i j : Fin rows}

theorem mem_group {idx : α} : i ∈ group index idx ↔ index i = idx := by
  simp [group]

theorem score_mem_id2score (rewards : Tensor rows width ℚ) (i : Fin rows) :
    total (rewards i) ∈ id2score rewards index (index i) :=
  List.mem_map_of_mem (mem_group.mpr rfl)

/-- What the deviations of a group are divided by. -/
def unit (n : Normalization) (scores : List ℚ) : ℚ :=
  if n.norm_adv_by_std_in_grpo then id2std n.std scores + n.epsilon else 1

theorem id2std_nonneg : ∀ scores : List ℚ, 0 ≤ id2std n.std scores
  | [] => n.std_nonneg []
  | [_] => zero_le_one
  | x :: y :: scores => n.std_nonneg (x :: y :: scores)

theorem unit_pos (scores : List ℚ) : 0 < unit n scores := by
  rw [unit]
  split
  · exact add_pos_of_nonneg_of_pos (id2std_nonneg scores) n.epsilon_pos
  · exact one_pos

theorem normalized_eq (n : Normalization) (rewards : Tensor rows width ℚ) (index : Fin rows → α)
    (i : Fin rows) : normalized n rewards index i =
      (total (rewards i) - id2mean (id2score rewards index (index i))) /
        unit n (id2score rewards index (index i)) := by
  rw [normalized, unit]
  split
  · rfl
  · rw [div_one]

theorem id2mean_eq : ∀ {scores : List ℚ}, 2 ≤ scores.length → id2mean scores = Baseline.mean scores
  | _ :: _ :: _, _ => rfl

/-- Advantages are ordered as the scores are. -/
theorem normalized_lt_iff (hij : index i = index j) :
    normalized n rewards index i < normalized n rewards index j ↔
      total (rewards i) < total (rewards j) := by
  rw [normalized_eq, normalized_eq, hij, div_lt_div_iff_of_pos_right (unit_pos _),
    sub_lt_sub_iff_right]

/-- The advantages of a group with several rows sum to zero. -/
theorem sum_normalized {idx : α} (h : 2 ≤ (group index idx).length) :
    ((group index idx).map (normalized n rewards index)).sum = 0 := by
  have hscores : 2 ≤ (id2score rewards index idx).length := by
    rw [id2score, List.length_map]
    exact h
  have hdeviation : (group index idx).map (normalized n rewards index) =
      ((id2score rewards index idx).map (· - Baseline.mean (id2score rewards index idx))).map
        (· * (unit n (id2score rewards index idx))⁻¹) := by
    rw [List.map_map]
    nth_rewrite 3 [id2score]
    rw [List.map_map]
    refine List.map_congr_left fun i hi => ?_
    rw [normalized_eq, mem_group.mp hi, id2mean_eq hscores, div_eq_mul_inv]
    rfl
  have hne : id2score rewards index idx ≠ [] := List.ne_nil_of_length_pos (by omega)
  rw [hdeviation, List.sum_map_mul_right, List.map_id', Baseline.sum_sub_mean hne, zero_mul]

/-- They vanish exactly when the group has one score only. -/
theorem normalized_eq_zero_iff {idx : α} (h : 2 ≤ (group index idx).length) :
    (∀ i, index i = idx → normalized n rewards index i = 0) ↔
      ∀ i j, index i = idx → index j = idx → total (rewards i) = total (rewards j) := by
  have hscores : 2 ≤ (id2score rewards index idx).length := by
    rw [id2score, List.length_map]
    exact h
  have hzero (i : Fin rows) (hi : index i = idx) : normalized n rewards index i = 0 ↔
      total (rewards i) - Baseline.mean (id2score rewards index idx) = 0 := by
    rw [normalized_eq, hi, id2mean_eq hscores, div_eq_zero_iff, or_iff_left (unit_pos _).ne']
  have hmem (i : Fin rows) (hi : index i = idx) : total (rewards i) ∈ id2score rewards index idx :=
    hi ▸ score_mem_id2score rewards i
  have hall : (∀ x ∈ id2score rewards index idx, x - Baseline.mean (id2score rewards index idx) = 0) ↔
      ∀ x ∈ id2score rewards index idx, ∀ y ∈ id2score rewards index idx, x = y :=
    Baseline.sub_mean_eq_zero_iff
  constructor
  · intro hvanish i j hi hj
    exact hall.mp (fun x hx => by
      obtain ⟨k, hk, rfl⟩ := List.mem_map.mp hx
      exact (hzero k (mem_group.mp hk)).mp (hvanish k (mem_group.mp hk))) _
        (hmem i hi) _ (hmem j hj)
  · intro hequal i hi
    refine (hzero i hi).mpr (hall.mpr (fun x hx y hy => ?_) _ (hmem i hi))
    obtain ⟨k, hk, rfl⟩ := List.mem_map.mp hx
    obtain ⟨l, hl, rfl⟩ := List.mem_map.mp hy
    exact hequal k l (mem_group.mp hk) (mem_group.mp hl)

/-- A group with two scores has a row that is pushed up, and one that is pushed down. -/
theorem exists_normalized_signs (hij : index i = index j)
    (hne : total (rewards i) ≠ total (rewards j)) :
    (∃ k, index k = index i ∧ 0 < normalized n rewards index k) ∧
      ∃ k, index k = index i ∧ normalized n rewards index k < 0 := by
  have hi : total (rewards i) ∈ id2score rewards index (index i) := score_mem_id2score rewards i
  have hj : total (rewards j) ∈ id2score rewards index (index i) :=
    hij ▸ score_mem_id2score rewards j
  have hscores : 2 ≤ (id2score rewards index (index i)).length := by
    by_contra hlt
    have hone : (id2score rewards index (index i)).length ≤ 1 := by omega
    obtain ⟨x, hx⟩ : ∃ x, ∀ y ∈ id2score rewards index (index i), y = x := by
      rcases hlist : id2score rewards index (index i) with _ | ⟨x, _ | _⟩
      · exact ⟨0, by simp⟩
      · exact ⟨x, by simp⟩
      · rw [hlist] at hone
        simp at hone
    exact hne ((hx _ hi).trans (hx _ hj).symm)
  have hsign (k : Fin rows) (hk : index k = index i) : normalized n rewards index k =
      (total (rewards k) - Baseline.mean (id2score rewards index (index i))) /
        unit n (id2score rewards index (index i)) := by
    rw [normalized_eq, hk, id2mean_eq hscores]
  constructor
  · obtain ⟨x, hx, hlt⟩ := Baseline.exists_mean_lt hi hj hne
    obtain ⟨k, hk, rfl⟩ := List.mem_map.mp hx
    refine ⟨k, mem_group.mp hk, ?_⟩
    rw [hsign k (mem_group.mp hk)]
    exact div_pos (sub_pos.mpr hlt) (unit_pos _)
  · obtain ⟨x, hx, hlt⟩ := Baseline.exists_lt_mean hi hj hne
    obtain ⟨k, hk, rfl⟩ := List.mem_map.mp hx
    refine ⟨k, mem_group.mp hk, ?_⟩
    rw [hsign k (mem_group.mp hk)]
    exact div_neg_of_neg_of_pos (sub_neg.mpr hlt) (unit_pos _)

/-- **What the advantages say about the groups**: each row has one, on the tokens that were
generated. In a group they are ordered as the scores are. They sum to zero in a group with several
rows, and are zero throughout exactly if it has one score only. Two scores push some row up and some
row down. -/
structure GroupRelative (index : Fin rows → α) (rewards : Tensor rows width ℚ)
    (mask : Tensor rows width ℤ) (advantages : Tensor rows width ℚ) (advantage : Fin rows → ℚ) :
    Prop where
  spread : ∀ i t, advantages i t = advantage i * mask i t
  ordered : ∀ i j, index i = index j →
    (advantage i < advantage j ↔ total (rewards i) < total (rewards j))
  centred : ∀ idx, 2 ≤ (group index idx).length → ((group index idx).map advantage).sum = 0
  silent : ∀ idx, 2 ≤ (group index idx).length → ((∀ i, index i = idx → advantage i = 0) ↔
    ∀ i j, index i = idx → index j = idx → total (rewards i) = total (rewards j))
  contrast : ∀ i j, index i = index j → total (rewards i) ≠ total (rewards j) →
    (∃ k, index k = index i ∧ 0 < advantage k) ∧ ∃ k, index k = index i ∧ advantage k < 0

theorem normalized_relative (n : Normalization) (rewards : Tensor rows width ℚ)
    (mask : Tensor rows width ℤ) (index : Fin rows → α) :
    GroupRelative index rewards mask (computeGrpoOutcomeAdvantage n rewards mask index).1
      (normalized n rewards index) where
  spread _ _ := rfl
  ordered _ _ := normalized_lt_iff
  centred _ := sum_normalized
  silent _ := normalized_eq_zero_iff
  contrast _ _ := exists_normalized_signs

/-- **Advantages are group relative**, whatever the standard deviation is taken to be. -/
theorem computeGrpoOutcomeAdvantage_relative (n : Normalization) (rewards : Tensor rows width ℚ)
    (mask : Tensor rows width ℤ) (index : Fin rows → α) :
    ∃ advantage, GroupRelative index rewards mask
      (computeGrpoOutcomeAdvantage n rewards mask index).1 advantage :=
  ⟨_, normalized_relative n rewards mask index⟩

/-! ### After the judge -/

/-- **The judge does not turn a group around.** With the rewards that `apply_judge_reward` returns
the advantages are group relative, and a row that was a success is ahead of every failure of its
group: some row of such a group is pushed up, and some row is pushed down. -/
theorem judged_advantage_lt {py : Interp} {judge : Judge} {config : JudgeConfig}
    {enabled available : Bool}
    {batch : Batch rows width} {out : Tensor rows width ℚ} {metrics : List (PyStr × PyFloat)}
    (n : Normalization) (index : Fin rows → α) (ha : 0 ≤ config.alpha) (ha' : config.alpha < 1)
    (h : applyJudgeReward py judge config enabled available rewards batch = .ok (out, metrics)) :
    ∃ advantage, GroupRelative index out batch.response_mask
        (computeGrpoOutcomeAdvantage n out batch.response_mask index).1 advantage ∧
      ∀ i j, index i = index j → 1 ≤ total (rewards i) → total (rewards j) < 1 →
        advantage j < advantage i ∧ (∃ k, index k = index i ∧ 0 < advantage k) ∧
          ∃ k, index k = index i ∧ advantage k < 0 := by
  have hanchored := applyJudgeReward_anchored ha ha' h
  have hrelative := normalized_relative n out batch.response_mask index
  refine ⟨_, hrelative, fun i j hij hi hj => ?_⟩
  have hsuccess : 1 ≤ total (out i) := by
    rw [(hanchored.row i).success hi]
    exact hi
  have hlt : total (out j) < total (out i) :=
    lt_of_lt_of_le ((hanchored.row j).total_lt ha' hj) hsuccess
  exact ⟨(hrelative.ordered j i hij.symm).mpr hlt, hrelative.contrast i j hij hlt.ne'⟩

/-- Without the division, no standard deviation is read. -/
def sampleNormalization : Normalization where
  std _ := 0
  std_nonneg _ := le_rfl
  epsilon := 1 / 1000000
  epsilon_pos := by norm_num
  norm_adv_by_std_in_grpo := false

theorem judged_advantage_sample : ∃ out metrics,
    applyJudgeReward sampleInterp sampleJudge {} true true sampleRewards (sampleBatch []) =
      .ok (out, metrics) ∧
    ∃ advantage, GroupRelative (fun _ => ()) out (sampleBatch []).response_mask
        (computeGrpoOutcomeAdvantage sampleNormalization out (sampleBatch []).response_mask
          fun _ => ()).1 advantage ∧
      ∀ i j, () = () → 1 ≤ total (sampleRewards i) → total (sampleRewards j) < 1 →
        advantage j < advantage i ∧ (∃ k, () = () ∧ 0 < advantage k) ∧
          ∃ k, () = () ∧ advantage k < 0 := by
  have halpha : (0 : ℚ) ≤ ({} : JudgeConfig).alpha := by decide +kernel
  obtain ⟨⟨out, metrics⟩, h⟩ := (applyJudgeReward_ok_iff sampleJudge_accepted halpha
    (show (sampleBatch []).taskIds = some fun _ => .str "1" from rfl)).mpr
      fun _ _ messages hm i raw hraw _ _ => by
      simp only [sampleBatch, Option.some.injEq] at hm
      rw [← hm, PyVal.list.injEq] at hraw
      rw [← hraw]
      exact history_scorable
  exact ⟨out, metrics, h, judged_advantage_lt sampleNormalization (fun _ => ()) halpha
    (by decide +kernel) h⟩

end Grpo

end ToolAgent
