import Mathlib.Algebra.BigOperators.Fin
import ToolAgent.Trainer.Rounds

/-!
# The reported rollout budget

`plan_b_ndsr` and `b_ndsr_metrics` of `agentic_extensions`, and what `fit` makes of them: after the
rounds of `_generate_b_ndsr_batch` the scores of each group are planned once more, and the mean of
the plans is logged as the number of rollouts that a prompt got.

The plan goes by the labels of a finished group, and the rounds go by the labels they have seen and
by all the other prompts. So a plan is a guess at the size of the group, and it can be wrong.

## Main definitions

* `planBNdsr`, `bNdsrMetrics`, `fitPlans` — the plans and the metrics that `fit` logs
* `Reported` — plans, metrics and batch agree

## Main results

* `reported_iff` — when they do
-/

namespace ToolAgent

namespace Rounds

open Python Grouping

variable {n : ℕ} {α : Type} [DecidableEq α]

/-! ### Plans -/

/-- The environment variables of `plan_b_ndsr`. -/
structure RootConfig where
  minimum : ℤ := 4
  maximum : ℤ := 8
  increment : ℤ := 2
  top_ps : List ℚ := [0.85, 0.90, 0.92, 0.95, 0.88, 0.96, 0.90, 0.97, 0.85, 0.90, 0.92, 0.95]

structure BNDSPPlan where
  selected_rollouts : ℤ
  skipped_easy : ℤ
  root_top_p_sum : ℚ
  deriving DecidableEq

/-- The number of rollouts, and whether the task is skipped. -/
def planCount (config : RootConfig) (labels : List Bool) : ℤ × ℤ :=
  if labels ≠ [] ∧ labels.all id then (config.minimum, 1)
  else if 1 < labels.toFinset.card then (min config.maximum (config.minimum + config.increment), 0)
  else (config.maximum, 0)

/-- `plan_b_ndsr` -/
def planBNdsr (config : RootConfig) (scores : List ℚ) : BNDSPPlan :=
  let labels := scores.map fun x => decide (1 / 2 ≤ x)
  let (count, skipped) := planCount config labels
  let root_top_p_sum :=
    ((List.range count.toNat).map fun i => config.top_ps.getD (i % config.top_ps.length) 0).sum
  ⟨count, skipped, root_top_p_sum⟩

structure BNdsrMetrics where
  selected_rollouts : ℚ
  skipped_easy_tasks : ℚ
  root_top_p_sum : ℚ
  deriving DecidableEq

/-- `b_ndsr_metrics` -/
def bNdsrMetrics (plans : List BNDSPPlan) : BNdsrMetrics :=
  if plans = [] then ⟨0, 0, 0⟩
  else
    { selected_rollouts := (plans.map fun x => (x.selected_rollouts : ℚ)).sum / plans.length
      skipped_easy_tasks := (plans.map fun x => (x.skipped_easy : ℚ)).sum
      root_top_p_sum := (plans.map BNDSPPlan.root_top_p_sum).sum / plans.length }

/-! ### What `fit` logs -/

/-- The rows of a uid. -/
def groupOf (uid : Fin n → α) (u : α) (rows : List (Rollout n)) : List (Rollout n) :=
  group (fun r : Rollout n => uid r.prompt) u rows

/-- The plan of a uid, from the scores of its rows. -/
def planOf (uid : Fin n → α) (rows : List (Rollout n)) (u : α) : BNDSPPlan :=
  planBNdsr {} ((groupOf uid u rows).map Rollout.score)

/-- The plans of `fit`, one for each uid of the batch. -/
def fitPlans (uid : Fin n → α) (rows : List (Rollout n)) : List BNDSPPlan :=
  (fromKeys (rows.map fun r => uid r.prompt)).map (planOf uid rows)

/-- The plan of each group is the size of the group, and the metric is the mean number of rollouts
of a prompt. -/
def Reported (sampler : Sampler n) (uid : Fin n → α) : Prop :=
  ∀ out, generateBNdsrBatch sampler uid = .ok out →
    (∀ i, (planOf uid out (uid i)).selected_rollouts = (groupOf uid (uid i) out).length) ∧
      (bNdsrMetrics (fitPlans uid out)).selected_rollouts = (out.length : ℚ) / n

/-! ### Plans by default -/

/-- All of the first `m` rollouts of prompt `i` have a score of at least `1 / 2`. -/
def allSucceed (sampler : Sampler n) (i : Fin n) (m : ℕ) : Bool :=
  (List.range m).all fun k => decide (1 / 2 ≤ (rollout sampler i k).score)

theorem one_lt_card_iff (labels : List Bool) :
    1 < labels.toFinset.card ↔ true ∈ labels ∧ false ∈ labels := by
  rw [Finset.one_lt_card]
  constructor
  · rintro ⟨a, ha, b, hb, hab⟩
    rw [List.mem_toFinset] at ha hb
    cases a <;> cases b
    · exact absurd rfl hab
    · exact ⟨hb, ha⟩
    · exact ⟨ha, hb⟩
    · exact absurd rfl hab
  · rintro ⟨ht, hf⟩
    exact ⟨true, List.mem_toFinset.mpr ht, false, List.mem_toFinset.mpr hf, Bool.noConfusion⟩

/-- **The plan of a prompt** after `m` rollouts. -/
theorem planBNdsr_rollouts (sampler : Sampler n) (i : Fin n) {m : ℕ} (hm : m ≠ 0) :
    (planBNdsr {} (((List.range m).map (rollout sampler i)).map Rollout.score)).selected_rollouts =
      if allSucceed sampler i m then 4 else if succeedsWithin sampler i m then 6 else 8 := by
  let labels := (List.range m).map fun k => decide (1 / 2 ≤ (rollout sampler i k).score)
  have hlabels : (((List.range m).map (rollout sampler i)).map Rollout.score).map
      (fun x => decide (1 / 2 ≤ x)) = labels := by
    rw [List.map_map, List.map_map]
    rfl
  have hne : labels ≠ [] := by simpa [labels] using hm
  have hall : labels.all id = allSucceed sampler i m := List.all_map
  have hany : true ∈ labels ↔ succeedsWithin sampler i m = true := by
    simp [labels, succeedsWithin]
  have hfail : false ∈ labels ↔ allSucceed sampler i m = false := by
    simp [labels, allSucceed]
  have hplan : (planBNdsr {} (((List.range m).map (rollout sampler i)).map
      Rollout.score)).selected_rollouts = (planCount {} labels).1 := by
    rw [planBNdsr, hlabels]
  simp only [hplan, planCount, one_lt_card_iff, hall, hany, hfail]
  cases allSucceed sampler i m
  · cases succeedsWithin sampler i m
    · simp
    · simp
  · simp [hne]

theorem succeedsWithin_of_allSucceed {sampler : Sampler n} {i : Fin n} {m : ℕ} (hm : m ≠ 0)
    (h : allSucceed sampler i m = true) : succeedsWithin sampler i m = true := by
  rw [allSucceed, List.all_eq_true] at h
  rw [succeedsWithin, List.any_eq_true]
  exact ⟨0, List.mem_range.mpr (Nat.pos_of_ne_zero hm), h 0 (List.mem_range.mpr (Nat.pos_of_ne_zero hm))⟩

/-! ### When the report is right -/

section Report

variable {sampler : Sampler n} {uid : Fin n → α} {out : List (Rollout n)}

/-- Where the plans are the sizes of the groups, their mean is the mean size. -/
theorem metric_of_plans (huid : Function.Injective uid)
    (hoccurs : ∀ i, groupOf uid (uid i) out ≠ [])
    (hplans : ∀ i, (planOf uid out (uid i)).selected_rollouts = (groupOf uid (uid i) out).length)
    (hn : n ≠ 0) :
    (bNdsrMetrics (fitPlans uid out)).selected_rollouts = (out.length : ℚ) / n := by
  have hrows : ∀ r ∈ out, ∃ i, uid r.prompt = uid i := fun r _ => ⟨r.prompt, rfl⟩
  have hperm := fromKeys_perm (fun r : Rollout n => uid r.prompt) uid huid hrows hoccurs
  have hlen : (fitPlans uid out).length = n := by
    rw [fitPlans, List.length_map, hperm.length_eq, List.length_map, List.length_finRange]
  have hsum : ((fitPlans uid out).map fun x => (x.selected_rollouts : ℚ)).sum = out.length := by
    rw [fitPlans, List.map_map, (hperm.map _).sum_eq, List.map_map, ← Fin.sum_univ_def,
      length_eq_sum_group _ uid huid hrows, Nat.cast_sum]
    refine Finset.sum_congr rfl fun i _ => ?_
    rw [Function.comp_apply, Function.comp_apply, hplans i]
    exact Int.cast_natCast _
  have hne : fitPlans uid out ≠ [] := fun h => hn (by rw [← hlen, h]; rfl)
  rw [bNdsrMetrics, if_neg hne]
  show _ / _ = _
  rw [hsum, hlen]

theorem drawnCount_ne_zero (sampler : Sampler n) (i : Fin n) : drawnCount sampler i ≠ 0 := by
  rw [drawnCount]
  split_ifs <;> omega

/-- The plan of a group, against the number of rollouts that were drawn for its prompt. -/
theorem reported_iff_drawn (sampler : Sampler n) (huid : Function.Injective uid) (hn : n ≠ 0) :
    Reported sampler uid ↔ ∀ i,
      (if allSucceed sampler i (drawnCount sampler i) then 4
        else if succeedsWithin sampler i (drawnCount sampler i) then 6 else 8 : ℤ) =
          drawnCount sampler i := by
  obtain ⟨out, hout, hdrawn⟩ := generateBNdsrBatch_drawn sampler hn huid
  have hgroup : ∀ i, groupOf uid (uid i) out =
      (List.range (drawnCount sampler i)).map (rollout sampler i) := fun i => by
    rw [groupOf, group_uid huid, hdrawn i]
  have hplan : ∀ i, (planOf uid out (uid i)).selected_rollouts =
      if allSucceed sampler i (drawnCount sampler i) then 4
      else if succeedsWithin sampler i (drawnCount sampler i) then 6 else 8 := fun i => by
    rw [planOf, hgroup, planBNdsr_rollouts sampler i (drawnCount_ne_zero sampler i)]
  have hsize : ∀ i, (groupOf uid (uid i) out).length = drawnCount sampler i := fun i => by
    rw [hgroup, List.length_map, List.length_range]
  constructor
  · intro h i
    have hi := (h out hout).1 i
    rwa [hplan, hsize] at hi
  · intro h out' hout'
    obtain rfl : out = out' := Except.ok.inj (hout.symm.trans hout')
    have hplans : ∀ i, (planOf uid out (uid i)).selected_rollouts =
        (groupOf uid (uid i) out).length := fun i => by rw [hplan, hsize, h i]
    refine ⟨hplans, metric_of_plans huid (fun i => ?_) hplans hn⟩
    rw [← List.length_pos_iff, hsize]
    exact Nat.pos_of_ne_zero (drawnCount_ne_zero sampler i)

/-- **When the report is right.** If every prompt succeeds in round one, each must succeed with all
of its four rollouts. Otherwise a prompt that succeeds within six must also fail once, and one that
does not must go on to fail. -/
theorem reported_iff (sampler : Sampler n) (huid : Function.Injective uid) :
    Reported sampler uid ↔
      if ∀ j, succeedsWithin sampler j 4 = true then ∀ i, allSucceed sampler i 4 = true
      else ∀ i, if succeedsWithin sampler i 6 = true then allSucceed sampler i 6 = false
        else succeedsWithin sampler i 8 = false := by
  by_cases hn : n = 0
  · obtain ⟨e, he⟩ := generateBNdsrBatch_no_prompt sampler uid hn
    subst hn
    simp [Reported, he]
  rw [reported_iff_drawn sampler huid hn]
  split
  · next heasy =>
    refine forall_congr' fun i => ?_
    rw [drawnCount, if_pos heasy, heasy i]
    cases allSucceed sampler i 4 <;> simp
  · next hmixed =>
    refine forall_congr' fun i => ?_
    rw [drawnCount, if_neg hmixed]
    split
    · cases allSucceed sampler i 6 <;> simp
    · cases hall : allSucceed sampler i 8
      · cases succeedsWithin sampler i 8 <;> simp
      · simp [succeedsWithin_of_allSucceed (by omega) hall]

/-- A prompt whose first rollout succeeds and whose others fail. -/
def luckySampler : Sampler 1 := fun _ k => if k = 0 then [0, 1] else [0, 0]

/-- A prompt whose first rollout succeeds, next to one that never does. -/
def partlySampler : Sampler 2 := fun i k => if i = 0 ∧ k = 0 then [0, 1] else [0, 0]

/-- With a prompt that always succeeds in place of the one that succeeds once, the plan reports four
rollouts and six are drawn. -/
theorem reported_iff_sample : Reported partlySampler (Fin.val : Fin 2 → ℕ) ∧
    ¬Reported (sampleSampler ![true, false]) (Fin.val : Fin 2 → ℕ) := by
  refine ⟨(reported_iff partlySampler Fin.val_injective).mpr (by decide +kernel), fun h => ?_⟩
  exact absurd ((reported_iff _ Fin.val_injective).mp h) (by decide +kernel)

/-- One success in four is planned as six rollouts, and the group has four. -/
theorem not_reported_lucky :
    Function.Injective (Fin.val : Fin 1 → ℕ) ∧ ¬Reported luckySampler (Fin.val : Fin 1 → ℕ) := by
  refine ⟨Fin.val_injective, fun h => ?_⟩
  have hrun : (generateBNdsrBatch luckySampler (Fin.val : Fin 1 → ℕ)).map (fun out =>
      ((planOf Fin.val out 0).selected_rollouts, (groupOf Fin.val 0 out).length)) = .ok (6, 4) := by
    decide +kernel
  obtain ⟨out, hout, hpair⟩ := map_eq_ok.mp hrun
  rw [Prod.mk.injEq] at hpair
  have hzero := (h out hout).1 0
  rw [Fin.val_zero, hpair.1, hpair.2] at hzero
  exact absurd hzero (by decide)

end Report

end Rounds

end ToolAgent
