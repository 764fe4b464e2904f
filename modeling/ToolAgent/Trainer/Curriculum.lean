import ToolAgent.Library.Selection
import ToolAgent.Python.Builtins
import Mathlib.Algebra.Order.Ring.Star
import Mathlib.Data.List.GetD
import Mathlib.Data.List.Nodup
import Mathlib.Data.Rat.Star
import Mathlib.Tactic.NormNum

/-!
# Curriculum sampling

`CurriculumSampler.choose` draws the tasks of a training step, and `_apply_curriculum` of
`verl.trainer.ppo.ray_trainer` replaces each drawn task by one of the rows of the batch that carry
it. Both draw with replacement, and the rows keep the uids that `fit` gave them before.

## Random draws

The `k`-th round of a loop draws from two generators. Their outcomes are fields of `Draws`, with
the ranges the generators promise and nothing else, so a statement about every `Draws` is a
statement about every outcome.

## Main definitions

* `CurriculumConfig.ratio`, `choose` — the schedule and the drawn tasks
* `applyCurriculum` — the rows that are trained on
* `drawnRow` — what the `k`-th round hits: a task, and one of its rows

## Main results

* `applyCurriculum_rows` — the batch is resampled row by row, without a lookup error
* `applyCurriculum_nodup_iff` — the uids stay distinct exactly when no row is hit twice
* `applyCurriculum_resampled` — the new rows are of the drawn tasks, and the metrics count them
-/

namespace ToolAgent

namespace Curriculum

open Python

variable {α : Type}

/-! ### The schedule -/

structure CurriculumConfig where
  enabled : Bool
  schedule : PyStr
  seed : ℤ

/-- The loop of `ratio` over the items of the schedule. -/
def ratioLoop (step : ℤ) (result : PyFloat) : List PyStr → Except PyErr PyFloat
  | [] => .ok result
  | entry :: entries =>
    if strip entry = [] then ratioLoop step result entries
    else
      match splitOnce (ch ':') entry with
      | none => throw .valueError "not enough values to unpack (expected 2, got 1)"
      | some (last, value) => do
        let last ← intOfStr last
        let value ← floatOfStr value
        if step ≤ last then .ok value else ratioLoop step value entries

def CurriculumConfig.ratio (config : CurriculumConfig) (step : ℤ) : Except PyErr PyFloat :=
  ratioLoop step (.fin 1) (splitOn (ch ',') config.schedule)

/-! ### Random draws -/

/-- The outcomes of the draws of one step, round by round. -/
structure Draws where
  /-- `rng.random()` -/
  random : ℕ → ℚ
  /-- `rng.randrange(len)` -/
  randrange : ℕ → ℕ → ℕ
  /-- `np.random.RandomState(seed)`, which takes a seed of 32 bits and may raise for any other. -/
  randomState : ℤ → Except PyErr Unit
  /-- `np.random.RandomState(...).randint(len)` -/
  randint : ℕ → ℕ → ℕ
  random_mem : ∀ k, 0 ≤ random k ∧ random k < 1
  randrange_lt : ∀ k len, 0 < len → randrange k len < len
  randomState_ok : ∀ seed, 0 ≤ seed → seed < 2 ^ 32 → randomState seed = .ok ()
  randint_lt : ∀ k len, 0 < len → randint k len < len

/-- `xs[draw(len(xs))]`. An empty range cannot be drawn from. -/
def drawFrom {β : Type} (draw : ℕ → ℕ) (xs : List β) : Except PyErr β :=
  if xs.isEmpty then throw .valueError "empty range" else item xs (draw xs.length)

/-- `x < y` for a drawn `x`. -/
def below (x : ℚ) : PyFloat → Bool
  | .fin y => x < y
  | .inf neg => !neg
  | .nan => false

/-! ### The drawn tasks -/

/-- A `CurriculumSampler`: its two sets of tasks come from the split file. -/
structure Sampler where
  config : CurriculumConfig
  covered : List ℤ
  uncovered : List ℤ

/-- The tasks of the batch that the split file counts as covered. -/
def Sampler.coveredIn (s : Sampler) (available : List ℤ) : List ℤ :=
  available.filter (s.covered.contains ·)

def Sampler.uncoveredIn (s : Sampler) (available : List ℤ) : List ℤ :=
  available.filter (s.uncovered.contains ·)

/-- Whether tasks are drawn at all, or taken as they come. -/
def Sampler.mixes (s : Sampler) (available : List ℤ) : Bool :=
  s.config.enabled && !(s.coveredIn available).isEmpty && !(s.uncoveredIn available).isEmpty

/-- Where round `k` draws its task from. -/
def Sampler.source (s : Sampler) (draws : Draws) (available : List ℤ) (target : PyFloat) (k : ℕ) :
    List ℤ :=
  let covered := s.coveredIn available
  let uncovered := s.uncoveredIn available
  if below (draws.random k) target then if covered.isEmpty then uncovered else covered
  else if uncovered.isEmpty then covered else uncovered

/-- The loop of `choose`, or the tasks as they come. -/
def Sampler.chosen (s : Sampler) (draws : Draws) (available : List ℤ) (target : PyFloat)
    (count : ℕ) : Except PyErr (List ℤ) :=
  if s.mixes available then
    (List.range count).mapM fun k =>
      drawFrom (draws.randrange k) (s.source draws available target k)
  else if available.isEmpty then .ok []
  else (List.range count).mapM fun i => item available (i % available.length)

def Sampler.metrics (s : Sampler) (target : PyFloat) (chosen : List ℤ) : List (PyStr × PyFloat) :=
  [("curriculum/covered_count", .fin (chosen.countP (s.covered.contains ·) : ℕ)),
    ("curriculum/uncovered_count", .fin (chosen.countP (s.uncovered.contains ·) : ℕ)),
    ("curriculum/covered_ratio_target", target)]

def Sampler.choose (s : Sampler) (draws : Draws) (available : List ℤ) (count : ℕ) (step : ℤ) :
    Except PyErr (List ℤ × List (PyStr × PyFloat)) := do
  let target ← s.config.ratio step
  let chosen ← s.chosen draws available target count
  .ok (chosen, s.metrics target chosen)

/-! ### The rows -/

/-- A row of the training batch. -/
structure Row (α : Type) where
  uid : α
  task_id : PyVal
  extra_info : PyVal

/-- A training batch. The flags say whether it has the two columns. -/
structure Batch (α : Type) where
  rows : List (Row α)
  has_task_id : Bool
  has_extra_info : Bool

def Batch.uids (batch : Batch α) : List α := batch.rows.map Row.uid

/-- Selection of rows. -/
def Batch.slice (batch : Batch α) (indices : List ℕ) : Except PyErr (Batch α) := do
  let rows ← indices.mapM (item batch.rows)
  .ok { batch with rows := rows }

/-- `item["task_id"]` of an `extra_info`, unless it is missing or `None`. -/
def extractedTaskId : PyVal → Option PyVal
  | .dict items =>
    if dictGet items "task_id" = .null then none else some (dictGet items "task_id")
  | _ => none

/-- The column that the task ids are parsed from. -/
def taskIdValues (batch : Batch α) : Option (List PyVal) :=
  if batch.has_task_id then some (batch.rows.map Row.task_id)
  else if batch.has_extra_info then
    let extracted := batch.rows.filterMap fun r => extractedTaskId r.extra_info
    if extracted.length = batch.rows.length then some extracted else none
  else none

/-- `_task_ids`. -/
def taskIds (batch : Batch α) : Except PyErr (Option (List ℤ)) :=
  match taskIdValues batch with
  | none => .ok none
  | some values =>
    match values.mapM pyInt with
    | .ok ids => .ok (some ids)
    | .error e => if e.caughtBy [.typeError, .valueError] then .ok none else .error e

/-- `positions[task_id]`. -/
def positions (ids : List ℤ) (taskId : ℤ) : List ℕ :=
  (List.range ids.length).filter fun index => ids[index]? = some taskId

/-- The new batch, and what is added to the metrics. -/
def applyCurriculum (s : Sampler) (draws : Draws) (globalSteps : ℤ) (batch : Batch α) :
    Except PyErr (Batch α × List (PyStr × PyFloat)) :=
  if !s.config.enabled then .ok (batch, [])
  else do
    match ← taskIds batch with
    | none => .ok (batch, [])
    | some ids =>
      if ids.isEmpty then .ok (batch, [])
      else
        let (chosen, metrics) ← s.choose draws ids ids.length globalSteps
        draws.randomState (globalSteps + s.config.seed)
        let indices ← chosen.zipIdx.mapM fun (taskId, k) =>
          drawFrom (draws.randint k) (positions ids taskId)
        let out ← batch.slice indices
        .ok (out, metrics)

/-! ### What a round hits -/

/-- The task that round `k` draws. -/
def drawnTask (s : Sampler) (draws : Draws) (ids : List ℤ) (target : PyFloat) (k : ℕ) : ℤ :=
  if s.mixes ids then
    let source := s.source draws ids target k
    source.getD (draws.randrange k source.length) 0
  else ids.getD k 0

/-- The tasks of all rounds. -/
def drawnTasks (s : Sampler) (draws : Draws) (ids : List ℤ) (target : PyFloat) : List ℤ :=
  (List.range ids.length).map (drawnTask s draws ids target)

/-- The task that round `k` draws, and which of the task's rows. -/
def drawnRow (s : Sampler) (draws : Draws) (ids : List ℤ) (target : PyFloat) (k : ℕ) : ℤ × ℕ :=
  let taskId := drawnTask s draws ids target k
  (taskId, draws.randint k (positions ids taskId).length)

/-- The index of that row in the batch. -/
def drawnIndex (s : Sampler) (draws : Draws) (ids : List ℤ) (target : PyFloat) (k : ℕ) : ℕ :=
  (positions ids (drawnRow s draws ids target k).1).getD (drawnRow s draws ids target k).2 0

section Draws

variable {s : Sampler} {draws : Draws} {ids : List ℤ} {target : PyFloat}

theorem drawFrom_eq_ok {β : Type} {draw : ℕ → ℕ} {xs : List β} (default : β) (hxs : xs ≠ [])
    (hdraw : draw xs.length < xs.length) :
    drawFrom draw xs = .ok (xs.getD (draw xs.length) default) := by
  rw [drawFrom, if_neg (by simpa using hxs), item_eq_ok, List.getElem?_eq_getElem hdraw,
    List.getD_eq_getElem _ _ hdraw]

theorem source_ne_nil (hmix : s.mixes ids = true) (k : ℕ) : s.source draws ids target k ≠ [] := by
  simp only [Sampler.mixes, Bool.and_eq_true, Bool.not_eq_true', List.isEmpty_eq_false_iff] at hmix
  obtain ⟨⟨-, hcov⟩, hunc⟩ := hmix
  rw [Sampler.source]
  simp only [List.isEmpty_iff, hcov, hunc, if_false]
  split
  · exact hcov
  · exact hunc

theorem mem_source {t : ℤ} {k : ℕ} (h : t ∈ s.source draws ids target k) :
    t ∈ s.coveredIn ids ∨ t ∈ s.uncoveredIn ids := by
  rw [Sampler.source] at h
  split at h
  · split at h
    · exact .inr h
    · exact .inl h
  · split at h
    · exact .inl h
    · exact .inr h

theorem randrange_lt_source (hmix : s.mixes ids = true) (k : ℕ) :
    draws.randrange k (s.source draws ids target k).length <
      (s.source draws ids target k).length :=
  draws.randrange_lt k _ (List.length_pos_iff.mpr (source_ne_nil hmix k))

theorem drawnTask_mem_source (hmix : s.mixes ids = true) (k : ℕ) :
    drawnTask s draws ids target k ∈ s.source draws ids target k := by
  have hlt : draws.randrange k (s.source draws ids target k).length < _ :=
    randrange_lt_source hmix k
  rw [drawnTask, if_pos hmix]
  show List.getD _ _ 0 ∈ _
  rw [List.getD_eq_getElem _ _ hlt]
  exact List.getElem_mem hlt

/-- Only tasks of the batch are drawn. -/
theorem drawnTask_mem {k : ℕ} (hk : k < ids.length) : drawnTask s draws ids target k ∈ ids := by
  by_cases hmix : s.mixes ids = true
  · rcases mem_source (drawnTask_mem_source hmix k) with h | h
    · exact List.mem_of_mem_filter h
    · exact List.mem_of_mem_filter h
  · rw [drawnTask, if_neg hmix, List.getD_eq_getElem _ _ hk]
    exact List.getElem_mem hk

/-- **The drawn tasks**, when as many are drawn as the batch has rows. -/
theorem chosen_eq_ok (hids : ids ≠ []) :
    s.chosen draws ids target ids.length = .ok (drawnTasks s draws ids target) := by
  rw [Sampler.chosen, drawnTasks]
  by_cases hmix : s.mixes ids = true
  · rw [if_pos hmix]
    refine mapM_eq_ok_map fun k _ => ?_
    rw [drawFrom_eq_ok 0 (source_ne_nil hmix k) (randrange_lt_source hmix k), drawnTask,
      if_pos hmix]
  · rw [if_neg hmix, if_neg (by simpa using hids)]
    refine mapM_eq_ok_map fun k hk => ?_
    have hlt := List.mem_range.mp hk
    rw [Nat.mod_eq_of_lt hlt, item_eq_ok, drawnTask, if_neg hmix, List.getElem?_eq_getElem hlt,
      List.getD_eq_getElem _ _ hlt]

theorem positions_eq (ids : List ℤ) (t : ℤ) : positions ids t = Selection.indicesOf ids t := rfl

theorem mem_positions {t : ℤ} {i : ℕ} : i ∈ positions ids t ↔ ids[i]? = some t := by
  rw [positions_eq, Selection.mem_indicesOf]

theorem positions_nodup (t : ℤ) : (positions ids t).Nodup := by
  rw [positions_eq]
  exact (Selection.sortedLT_indicesOf ids t).nodup

theorem positions_ne_nil {t : ℤ} (ht : t ∈ ids) : positions ids t ≠ [] := by
  obtain ⟨i, hi⟩ := List.mem_iff_getElem?.mp ht
  exact List.ne_nil_of_mem (mem_positions.mpr hi)

theorem randint_lt_positions {k : ℕ} (hk : k < ids.length) :
    (drawnRow s draws ids target k).2 < (positions ids (drawnRow s draws ids target k).1).length :=
  draws.randint_lt k _ (List.length_pos_iff.mpr (positions_ne_nil (drawnTask_mem hk)))

theorem drawnIndex_mem {k : ℕ} (hk : k < ids.length) :
    drawnIndex s draws ids target k ∈ positions ids (drawnTask s draws ids target k) := by
  rw [drawnIndex, List.getD_eq_getElem _ _ (randint_lt_positions hk)]
  exact List.getElem_mem _

/-- The index says which task was drawn and which of its rows. -/
theorem drawnIndex_eq_iff {k l : ℕ} (hk : k < ids.length) (hl : l < ids.length) :
    drawnIndex s draws ids target k = drawnIndex s draws ids target l ↔
      drawnRow s draws ids target k = drawnRow s draws ids target l := by
  constructor
  · intro h
    have htask : (drawnRow s draws ids target k).1 = (drawnRow s draws ids target l).1 := by
      have hk' : drawnIndex s draws ids target k ∈ _ := drawnIndex_mem hk
      rw [h, mem_positions, mem_positions.mp (drawnIndex_mem hl)] at hk'
      exact (Option.some.inj hk').symm
    refine Prod.ext htask ?_
    have hlk : (drawnRow s draws ids target l).2 < _ := randint_lt_positions hl
    rw [← htask] at hlk
    rw [drawnIndex, drawnIndex, ← htask, List.getD_eq_getElem _ _ (randint_lt_positions hk),
      List.getD_eq_getElem _ _ hlk] at h
    exact (positions_nodup _).getElem_inj_iff.mp h
  · intro h
    rw [drawnIndex, drawnIndex, h]

end Draws

/-! ### The task of a row -/

/-- What the task id of a row is parsed from, if its batch has a column for that. -/
def Batch.taskIdValue (batch : Batch α) (r : Row α) : Option PyVal :=
  if batch.has_task_id then some r.task_id else extractedTaskId r.extra_info

def Batch.taskIdOf (batch : Batch α) (r : Row α) : Option ℤ :=
  (batch.taskIdValue r).bind fun v => (pyInt v).toOption

theorem taskIdValues_eq_some {batch : Batch α} {values : List PyVal} :
    taskIdValues batch = some values ↔ (batch.has_task_id = true ∨ batch.has_extra_info = true) ∧
      batch.rows.map batch.taskIdValue = values.map some := by
  rw [taskIdValues]
  by_cases htask : batch.has_task_id = true
  · have hvalue : batch.taskIdValue = some ∘ Row.task_id := by
      funext r
      rw [Batch.taskIdValue, if_pos htask]
      rfl
    rw [if_pos htask, hvalue, ← List.map_map, List.map_inj_right (fun _ _ => Option.some.inj)]
    simp [htask]
  · have hvalue : batch.taskIdValue = fun r => extractedTaskId r.extra_info := by
      funext r
      rw [Batch.taskIdValue, if_neg htask]
    rw [if_neg htask, hvalue, map_eq_map_some]
    by_cases hextra : batch.has_extra_info = true
    · simp only [hextra, if_true, or_true, true_and]
      split
      · next hlen => simp [hlen]
      · next hlen => simp [hlen]
    · simp [htask, hextra]

/-- **When the task ids parse.** -/
theorem taskIds_eq_some_iff {batch : Batch α} {ids : List ℤ} : taskIds batch = .ok (some ids) ↔
    (batch.has_task_id = true ∨ batch.has_extra_info = true) ∧
      batch.rows.map batch.taskIdOf = ids.map some := by
  have hparse : taskIds batch = .ok (some ids) ↔
      ∃ values, taskIdValues batch = some values ∧ values.mapM pyInt = .ok ids := by
    rw [taskIds]
    split
    · next hvalues => simp [hvalues]
    · next values hvalues =>
      rw [hvalues]
      cases hids : values.mapM pyInt with
      | ok ids' => simp [hids]
      | error e => by_cases hcaught : e.caughtBy [.typeError, .valueError] = true <;>
          simp [hids, hcaught]
  have hof : batch.rows.map batch.taskIdOf = (batch.rows.map batch.taskIdValue).map fun v? =>
      v?.bind fun v => (pyInt v).toOption := by
    rw [List.map_map]
    rfl
  rw [hparse, hof]
  constructor
  · rintro ⟨values, hvalues, hids⟩
    obtain ⟨hcolumn, hmap⟩ := taskIdValues_eq_some.mp hvalues
    rw [hmap, List.map_map]
    exact ⟨hcolumn, mapM_eq_ok_iff.mp hids⟩
  · rintro ⟨hcolumn, hids⟩
    have hsome : ∀ r ∈ batch.rows, (batch.taskIdValue r).isSome = true := by
      intro r hr
      rw [← hof] at hids
      obtain ⟨id, -, hid⟩ := List.mem_map.mp (hids ▸ List.mem_map_of_mem hr)
      exact Option.isSome_of_isSome_bind (Option.isSome_iff_exists.mpr ⟨id, hid.symm⟩)
    have hvalues := map_eq_map_some.mpr ⟨rfl, List.filterMap_length_eq_length.mpr hsome⟩
    rw [hvalues, List.map_map] at hids
    exact ⟨_, taskIdValues_eq_some.mpr ⟨hcolumn, hvalues⟩, mapM_eq_ok_iff.mpr hids⟩

section Batch

variable {s : Sampler} {draws : Draws} {batch : Batch α} {ids : List ℤ} {target : PyFloat}
  {step : ℤ}

theorem length_taskIds (h : taskIds batch = .ok (some ids)) : ids.length = batch.rows.length := by
  have hlen := congrArg List.length (taskIds_eq_some_iff.mp h).2
  rw [List.length_map, List.length_map] at hlen
  exact hlen.symm

theorem drawnIndex_lt (hids : taskIds batch = .ok (some ids)) :
    ∀ i ∈ (List.range ids.length).map (drawnIndex s draws ids target),
      i < batch.rows.length := by
  intro i hi
  obtain ⟨k, hk, rfl⟩ := List.mem_map.mp hi
  rw [← length_taskIds hids]
  exact (List.getElem?_eq_some_iff.mp (mem_positions.mp (drawnIndex_mem (List.mem_range.mp hk)))).1

/-- **Resampling is total and row by row.** The `k`-th row of the new batch is the row that round
`k` hits. -/
theorem applyCurriculum_rows (henabled : s.config.enabled = true)
    (hids : taskIds batch = .ok (some ids)) (hne : ids ≠ [])
    (htarget : s.config.ratio step = .ok target)
    (hseed : draws.randomState (step + s.config.seed) = .ok ()) :
    ∃ rows, applyCurriculum s draws step batch =
        .ok ({ batch with rows := rows }, s.metrics target (drawnTasks s draws ids target)) ∧
      rows.map some = (List.range ids.length).map fun k =>
        batch.rows[drawnIndex s draws ids target k]? := by
  have hchosen : s.chosen draws ids target ids.length = _ := chosen_eq_ok hne
  have hzip : (drawnTasks s draws ids target).zipIdx =
      (List.range ids.length).map fun k => (drawnTask s draws ids target k, k) := by
    refine List.ext_getElem (by simp [drawnTasks]) fun i hi _ => ?_
    simp [drawnTasks]
  have hindices : ((List.range ids.length).map fun k => (drawnTask s draws ids target k, k)).mapM
      (fun p => drawFrom (draws.randint p.2) (positions ids p.1)) =
      .ok ((List.range ids.length).map (drawnIndex s draws ids target)) := by
    rw [List.mapM_map]
    refine mapM_eq_ok_map fun k hk => ?_
    have hlt := List.mem_range.mp hk
    exact drawFrom_eq_ok 0 (positions_ne_nil (drawnTask_mem hlt)) (randint_lt_positions hlt)
  obtain ⟨rows, hrows, hmap⟩ := exists_mapM_item (drawnIndex_lt hids)
  rw [List.map_map] at hmap
  refine ⟨rows, ?_, hmap⟩
  rw [applyCurriculum, henabled]
  simp only [Bool.not_true, Bool.false_eq_true, if_false, hids, Sampler.choose, htarget, hchosen,
    hseed, hzip, hindices, List.isEmpty_iff, hne, bind, Except.bind, Batch.slice, hrows]

/-- A selection of rows has distinct uids when the batch has and no row is selected twice. -/
theorem nodup_uids_iff {out : Batch α} {indices : List ℕ} (huid : batch.uids.Nodup)
    (hrange : ∀ i ∈ indices, i < batch.rows.length)
    (hout : out.rows.map some = indices.map fun i => batch.rows[i]?) :
    out.uids.Nodup ↔ indices.Nodup := by
  have hmap : out.uids.map some = indices.map fun i => batch.uids[i]? := by
    have h := congrArg (List.map (Option.map Row.uid)) hout
    rw [List.map_map, List.map_map] at h
    simpa [Batch.uids, Function.comp_def] using h
  have hsome : out.uids.Nodup ↔ (out.uids.map some).Nodup :=
    (List.nodup_map_iff (Option.some_injective α)).symm
  rw [hsome, hmap]
  refine ⟨fun h => h.of_map _, fun h => h.map_on fun i hi j hj hij => ?_⟩
  have hi' : i < batch.uids.length := by simpa [Batch.uids] using hrange i hi
  have hj' : j < batch.uids.length := by simpa [Batch.uids] using hrange j hj
  rw [List.getElem?_eq_getElem hi', List.getElem?_eq_getElem hj', Option.some.injEq] at hij
  exact huid.getElem_inj_iff.mp hij

/-- No two rounds hit the same row. -/
def NoCollision (s : Sampler) (draws : Draws) (ids : List ℤ) (target : PyFloat) : Prop :=
  ∀ k l, k < l → l < ids.length → drawnRow s draws ids target k ≠ drawnRow s draws ids target l

theorem nodup_drawnIndex_iff :
    ((List.range ids.length).map (drawnIndex s draws ids target)).Nodup ↔
      NoCollision s draws ids target := by
  rw [List.nodup_map_iff_inj_on List.nodup_range]
  constructor
  · intro h k l hkl hl heq
    have hk := lt_trans hkl hl
    have hindex := (drawnIndex_eq_iff hk hl).mpr heq
    exact absurd (h k (List.mem_range.mpr hk) l (List.mem_range.mpr hl) hindex) (Nat.ne_of_lt hkl)
  · intro h k hk l hl heq
    rw [List.mem_range] at hk hl
    have hrow := (drawnIndex_eq_iff hk hl).mp heq
    rcases Nat.lt_trichotomy k l with hkl | hkl | hkl
    · exact absurd hrow (h k l hkl hl)
    · exact hkl
    · exact absurd hrow.symm (h l k hkl hk)

/-- **Distinct uids after resampling.** For an enabled sampler and a batch with distinct uids, the
new batch has distinct uids if and only if parsing the task ids and the schedule does not raise
and, where tasks are drawn, the seed is accepted and no row is hit twice. -/
theorem applyCurriculum_nodup_iff (s : Sampler) (draws : Draws) (step : ℤ) (batch : Batch α)
    (henabled : s.config.enabled = true) (huid : batch.uids.Nodup) :
    (∃ out metrics, applyCurriculum s draws step batch = .ok (out, metrics) ∧ out.uids.Nodup) ↔
      ∃ ids?, taskIds batch = .ok ids? ∧ ∀ ids, ids? = some ids → ids ≠ [] →
        ∃ target, s.config.ratio step = .ok target ∧
          draws.randomState (step + s.config.seed) = .ok () ∧ NoCollision s draws ids target := by
  have hunchanged : applyCurriculum s draws step batch = .ok (batch, []) →
      ∃ out metrics, applyCurriculum s draws step batch = .ok (out, metrics) ∧ out.uids.Nodup :=
    fun h => ⟨batch, [], h, huid⟩
  have hunfold : applyCurriculum s draws step batch = (taskIds batch >>= fun
      | none => .ok (batch, [])
      | some ids => if ids.isEmpty then .ok (batch, []) else do
        let (chosen, metrics) ← s.choose draws ids ids.length step
        draws.randomState (step + s.config.seed)
        let indices ← chosen.zipIdx.mapM fun (taskId, k) =>
          drawFrom (draws.randint k) (positions ids taskId)
        let out ← batch.slice indices
        .ok (out, metrics)) := by
    rw [applyCurriculum, henabled]
    rfl
  rcases hids : taskIds batch with e | ids?
  · simp [hunfold, hids, bind, Except.bind]
  rcases ids? with - | ids
  · refine iff_of_true (hunchanged ?_) ⟨none, rfl, by simp⟩
    rw [hunfold, hids]
    rfl
  by_cases hne : ids = []
  · subst hne
    refine iff_of_true (hunchanged ?_) ⟨some [], rfl, by simp⟩
    rw [hunfold, hids]
    rfl
  rcases htarget : s.config.ratio step with e | target
  · simp [hunfold, hids, hne, Sampler.choose, htarget, bind, Except.bind]
  rcases hseed : draws.randomState (step + s.config.seed) with e | ⟨⟩
  · simp [hunfold, hids, hne, Sampler.choose, htarget, chosen_eq_ok hne, hseed, bind, Except.bind]
  · obtain ⟨rows, hout, hrows⟩ := applyCurriculum_rows henabled hids hne htarget hseed
    have hnodup : ({ batch with rows := rows } : Batch α).uids.Nodup ↔
        NoCollision s draws ids target := by
      rw [← nodup_drawnIndex_iff]
      exact nodup_uids_iff huid (drawnIndex_lt hids) (by rw [hrows, List.map_map]; rfl)
    simp [hout, hne, hnodup]

end Batch

/-! ### The tasks of the resampled batch -/

section Tasks

variable {s : Sampler} {draws : Draws} {batch : Batch α} {ids : List ℤ} {target : PyFloat}
  {step : ℤ} {rows : List (Row α)}

theorem drawnTasks_mem {t : ℤ} (ht : t ∈ drawnTasks s draws ids target) : t ∈ ids := by
  obtain ⟨k, hk, rfl⟩ := List.mem_map.mp ht
  exact drawnTask_mem (List.mem_range.mp hk)

/-- Every row of the new batch is a row of the task that its round draws. -/
theorem taskIds_resampled (hids : taskIds batch = .ok (some ids))
    (hrows : rows.map some = (List.range ids.length).map fun k =>
      batch.rows[drawnIndex s draws ids target k]?) :
    taskIds { batch with rows := rows } = .ok (some (drawnTasks s draws ids target)) := by
  obtain ⟨hcolumn, hmap⟩ := taskIds_eq_some_iff.mp hids
  refine taskIds_eq_some_iff.mpr ⟨hcolumn, ?_⟩
  have hrow : rows.map batch.taskIdOf = (List.range ids.length).map fun k =>
      batch.rows[drawnIndex s draws ids target k]?.bind batch.taskIdOf := by
    have h := congrArg (List.map fun r? => Option.bind r? batch.taskIdOf) hrows
    rwa [List.map_map, List.map_map] at h
  have htask : ∀ k ∈ List.range ids.length,
      batch.rows[drawnIndex s draws ids target k]?.bind batch.taskIdOf =
        some (drawnTask s draws ids target k) := by
    intro k hk
    have hindex : drawnIndex s draws ids target k ∈ positions ids
        (drawnTask s draws ids target k) :=
      drawnIndex_mem (List.mem_range.mp hk)
    have hid := congrArg (·[drawnIndex s draws ids target k]?) hmap
    simp only [List.getElem?_map, mem_positions.mp hindex, Option.map_some,
      Option.map_eq_some_iff] at hid
    obtain ⟨r, hr, hid⟩ := hid
    rw [hr, Option.bind_some, hid]
  show rows.map batch.taskIdOf = _
  rw [hrow, List.map_congr_left htask, drawnTasks, List.map_map]
  rfl

/-- Where both kinds of tasks are in the batch, every drawn task is of one of them. -/
theorem drawnTasks_mixed (hmix : s.mixes ids = true) : ∀ t ∈ drawnTasks s draws ids target,
    s.covered.contains t = true ∨ s.uncovered.contains t = true := by
  intro t ht
  obtain ⟨k, -, rfl⟩ := List.mem_map.mp ht
  exact (mem_source (drawnTask_mem_source hmix k)).imp List.of_mem_filter List.of_mem_filter

theorem countP_add_countP {β : Type} {p q : β → Bool} {xs : List β}
    (h : ∀ x ∈ xs, p x = true ∨ q x = true) :
    xs.countP p + xs.countP q = xs.length + xs.countP fun x => p x && q x := by
  induction xs with
  | nil => rfl
  | cons x xs ih =>
    obtain ⟨hx, hxs⟩ := List.forall_mem_cons.mp h
    have ih := ih hxs
    rw [List.countP_cons, List.countP_cons, List.countP_cons, List.length_cons]
    cases hp : p x <;> cases hq : q x <;> simp_all <;> omega

/-- Rows that are taken as they come, from a batch without repeated tasks. -/
theorem rows_unmixed (hids : taskIds batch = .ok (some ids)) (hmix : s.mixes ids = false)
    (hnodup : ids.Nodup) (hrows : rows.map some = (List.range ids.length).map fun k =>
      batch.rows[drawnIndex s draws ids target k]?) : rows = batch.rows := by
  have hindex : ∀ k ∈ List.range ids.length,
      batch.rows[drawnIndex s draws ids target k]? = batch.rows[k]? := by
    intro k hk
    have hlt := List.mem_range.mp hk
    have hmem : drawnIndex s draws ids target k ∈ positions ids (drawnTask s draws ids target k) :=
      drawnIndex_mem hlt
    rw [mem_positions, drawnTask, hmix, if_neg Bool.false_ne_true, List.getD_eq_getElem _ _ hlt]
      at hmem
    obtain ⟨hlt', hget⟩ := List.getElem?_eq_some_iff.mp hmem
    rw [hnodup.getElem_inj_iff.mp hget]
  rw [List.map_congr_left hindex, length_taskIds hids] at hrows
  refine (List.map_inj_right fun _ _ => Option.some.inj).mp (hrows.trans ?_)
  exact Selection.range_map_getElem? batch.rows

/-- What `_apply_curriculum` makes of a batch with the task ids `ids`: the new batch, the tasks that
`choose` drew, and the metrics. -/
structure Resampled (s : Sampler) (ids : List ℤ) (batch out : Batch α) (chosen : List ℤ)
    (metrics : List (PyStr × PyFloat)) : Prop where
  length_eq : out.rows.length = batch.rows.length
  taskIds_eq : taskIds out = .ok (some chosen)
  chosen_mem : ∀ t ∈ chosen, t ∈ ids
  mixed : s.coveredIn ids ≠ [] → s.uncoveredIn ids ≠ [] →
    (∀ t ∈ chosen, t ∈ s.covered ∨ t ∈ s.uncovered) ∧
      ∃ covered uncovered : ℚ,
        metrics.lookup ("curriculum/covered_count" : PyStr) = some (.fin covered) ∧
        metrics.lookup ("curriculum/uncovered_count" : PyStr) = some (.fin uncovered) ∧
        covered + uncovered = out.rows.length + chosen.countP fun t =>
          s.covered.contains t && s.uncovered.contains t
  unmixed : s.coveredIn ids = [] ∨ s.uncoveredIn ids = [] → ids.Nodup → out = batch

theorem resampled_drawn (henabled : s.config.enabled = true)
    (hids : taskIds batch = .ok (some ids)) (hrows : rows.map some =
      (List.range ids.length).map fun k => batch.rows[drawnIndex s draws ids target k]?) :
    Resampled s ids batch { batch with rows := rows } (drawnTasks s draws ids target)
      (s.metrics target (drawnTasks s draws ids target)) := by
  have hlen : rows.length = ids.length := by
    have h := congrArg List.length hrows
    rwa [List.length_map, List.length_map, List.length_range] at h
  refine ⟨hlen.trans (length_taskIds hids), taskIds_resampled hids hrows,
    fun t ht => drawnTasks_mem ht, fun hcov hunc => ?_, fun hone hnodup => ?_⟩
  · have hmix : s.mixes ids = true := by simp [Sampler.mixes, henabled, hcov, hunc]
    have hkind : ∀ t ∈ drawnTasks s draws ids target, _ := drawnTasks_mixed hmix
    refine ⟨fun t ht => by simpa using hkind t ht, _, _, rfl, rfl, ?_⟩
    show _ = ((rows.length : ℕ) : ℚ) + _
    rw [hlen, ← Nat.cast_add, countP_add_countP hkind, drawnTasks, List.length_map,
      List.length_range, Nat.cast_add]
  · have hmix : s.mixes ids = false := by
      rcases hone with h | h <;> simp [Sampler.mixes, h]
    rw [rows_unmixed hids hmix hnodup hrows]

/-- **Resampling is total and faithful**, for a seed of 32 bits. -/
theorem applyCurriculum_resampled (s : Sampler) (draws : Draws) (step : ℤ) (batch : Batch α)
    (ids : List ℤ) (target : PyFloat) (henabled : s.config.enabled = true)
    (hids : taskIds batch = .ok (some ids)) (htarget : s.config.ratio step = .ok target)
    (hseed : 0 ≤ step + s.config.seed) (hseed' : step + s.config.seed < 2 ^ 32) :
    ∃ out chosen metrics curMetrics, applyCurriculum s draws step batch = .ok (out, metrics) ∧
      s.choose draws ids ids.length step = .ok (chosen, curMetrics) ∧
      (ids ≠ [] → metrics = curMetrics) ∧ Resampled s ids batch out chosen metrics := by
  by_cases hne : ids = []
  · subst hne
    have hrun : applyCurriculum s draws step batch = .ok (batch, []) := by
      rw [applyCurriculum, henabled]
      simp [hids, bind, Except.bind]
    have hchoose : s.choose draws [] 0 step = .ok ([], s.metrics target []) := by
      rw [Sampler.choose, htarget]
      simp [Sampler.chosen, Sampler.mixes, Sampler.coveredIn, bind, Except.bind]
    exact ⟨batch, [], [], _, hrun, hchoose, fun h => absurd rfl h, rfl, hids, by simp,
      fun h => absurd rfl h, fun _ _ => rfl⟩
  · obtain ⟨rows, hrun, hrows⟩ := applyCurriculum_rows henabled hids hne htarget
      (draws.randomState_ok _ hseed hseed')
    have hchoose : s.choose draws ids ids.length step =
        .ok (drawnTasks s draws ids target, s.metrics target (drawnTasks s draws ids target)) := by
      rw [Sampler.choose, htarget]
      simp [chosen_eq_ok hne, bind, Except.bind]
    exact ⟨_, _, _, _, hrun, hchoose, fun _ => rfl, resampled_drawn henabled hids hrows⟩

end Tasks

/-! ### A step of two rows

One row of a covered task and one of an uncovered task. Round zero draws the covered task, and what
round one draws depends on `second`. -/

def sampleSampler : Sampler :=
  { config := ⟨true, "40:0.85,100:0.60,300:0.40", 20260701⟩, covered := [1], uncovered := [2] }

def sampleDraws (second : ℚ) (h : 0 ≤ second ∧ second < 1) : Draws where
  random k := if k = 1 then second else 0
  randrange _ _ := 0
  randomState seed :=
    if 0 ≤ seed ∧ seed < 2 ^ 32 then .ok ()
    else throw .valueError "Seed must be between 0 and 2**32 - 1"
  randint _ _ := 0
  random_mem k := by
    split
    · exact h
    · exact ⟨le_rfl, one_pos⟩
  randrange_lt _ _ h := h
  randomState_ok seed h h' := if_pos ⟨h, h'⟩
  randint_lt _ _ h := h

def sampleBatch : Batch ℕ :=
  { rows := [⟨10, .int 1, .null⟩, ⟨11, .int 2, .null⟩], has_task_id :=
    true, has_extra_info := false }

theorem applyCurriculum_nodup_sample : ∃ out metrics,
    applyCurriculum sampleSampler (sampleDraws (9 / 10) (by norm_num)) 1 sampleBatch =
      .ok (out, metrics) ∧ out.uids.Nodup := by
  refine (applyCurriculum_nodup_iff sampleSampler (sampleDraws (9 / 10) (by norm_num)) 1 sampleBatch
    rfl (by decide)).mpr ⟨some [1, 2], by decide, ?_⟩
  intro ids hids _
  rw [← Option.some.inj hids]
  refine ⟨.ofRat (85 / 100), by decide +kernel, by decide, ?_⟩
  intro k l hkl hl
  obtain ⟨rfl, rfl⟩ : k = 0 ∧ l = 1 := by
    rw [List.length_cons, List.length_singleton] at hl
    omega
  decide +kernel

/-- Both rounds draw the covered task: its row is in the batch twice. -/
theorem applyCurriculum_duplicate : sampleSampler.config.enabled = true ∧ sampleBatch.uids.Nodup ∧
    ¬∃ out metrics, applyCurriculum sampleSampler (sampleDraws 0 (by norm_num)) 1 sampleBatch =
      .ok (out, metrics) ∧ out.uids.Nodup := by
  refine ⟨rfl, by decide, ?_⟩
  rintro ⟨out, metrics, hout, hnodup⟩
  have htwice : (applyCurriculum sampleSampler (sampleDraws 0 (by norm_num)) 1 sampleBatch).map
      (fun r => r.1.uids) = .ok [10, 10] := by
    decide +kernel
  rw [hout] at htwice
  have huids : out.uids = [10, 10] := Except.ok.inj htwice
  rw [huids] at hnodup
  exact absurd hnodup (by decide)

theorem applyCurriculum_resampled_sample : ∃ out chosen metrics curMetrics,
    applyCurriculum sampleSampler (sampleDraws 0 (by norm_num)) 1 sampleBatch =
      .ok (out, metrics) ∧
    sampleSampler.choose (sampleDraws 0 (by norm_num)) [1, 2] 2 1 = .ok (chosen, curMetrics) ∧
    (([1, 2] : List ℤ) ≠ [] → metrics = curMetrics) ∧
    Resampled sampleSampler [1, 2] sampleBatch out chosen metrics :=
  applyCurriculum_resampled sampleSampler (sampleDraws 0 (by norm_num)) 1 sampleBatch [1, 2]
    (.ofRat (85 / 100)) rfl (by decide) (by decide +kernel) (by decide) (by decide)

/-- A seed that `random.Random` takes and `np.random.RandomState` does not. -/
def negativeSeed : Sampler :=
  { sampleSampler with config := { sampleSampler.config with seed := -5 } }

theorem applyCurriculum_negative_seed : negativeSeed.config.enabled = true ∧
    taskIds sampleBatch = .ok (some [1, 2]) ∧
    negativeSeed.config.ratio 1 = .ok (.ofRat (85 / 100)) ∧
    ¬∃ out metrics, applyCurriculum negativeSeed (sampleDraws 0 (by norm_num)) 1 sampleBatch =
      .ok (out, metrics) := by
  refine ⟨rfl, by decide, by decide +kernel, ?_⟩
  rintro ⟨out, metrics, hout⟩
  have hraise : (applyCurriculum negativeSeed (sampleDraws 0 (by norm_num)) 1 sampleBatch).map
      (fun r => r.1.uids) = throw .valueError "Seed must be between 0 and 2**32 - 1" := by
    decide +kernel
  rw [hout] at hraise
  cases hraise

end Curriculum

end ToolAgent
