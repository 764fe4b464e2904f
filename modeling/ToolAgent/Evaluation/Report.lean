import ToolAgent.Library.Totals
import ToolAgent.Python.Builtins
import ToolAgent.Python.Json

/-!
# The evaluation report

`write_eval_report` of `toolagent.evaluation`: the metrics of every task, of every split of the
tasks and of all results. The rates are exact rationals.

A task belongs to the split that lists it last in the order covered, uncovered, unseen, and to none
if no list has it. Tasks are collected in the order of their first result, and printed in the order
of their ids.

## Why the report is consistent

Each metric of a block is a total, divided by the number of its tasks or of its results. The totals
of the blocks are totals over the same tasks and results, selected by their split, and a task is in
one split at most.

## Main definitions

* `taskSplits` — the split file
* `taskMetrics`, `blockMetrics`, `taskEntry` — the metrics of a task, of a block and in a task's
  entry
* `writeEvalReport` — the report
* `Consistent` — how the three agree
* `FourSamples` — each task has exactly the samples `0` to `3`

## Main results

* `reportOf_perm` — the order of the results does not matter
* `reportOf_consistent` — the blocks add up
* `writeEvalReport_consistent` — the two together
* `writeEvalReport_ordered` — `pass^4 ≤ pass@1 ≤ pass@4`, in each task and block
-/

namespace ToolAgent

namespace Evaluation

open Python Grouping

/-! ### The results and the report -/

structure EvalResult where
  task_id : ℤ
  sample_id : ℤ
  success : Bool
  reward : PyFloat
  num_turns : ℤ
  num_tool_calls : ℤ
  error : Option PyStr

/-- `bool(result.error)`: an empty text is no error. -/
def EvalResult.failed (result : EvalResult) : Bool :=
  match result.error with
  | none => false
  | some text => !text.isEmpty

/-- An entry of `per_task`. The key `pass^4` is `pass_hat_4`. -/
structure TaskEntry where
  task_id : ℤ
  split : PyStr
  num_samples : ℕ
  success_count : ℕ
  pass_at_1 : ℚ
  pass_at_4 : ℚ
  pass_power_4 : ℚ
  pass_hat_4 : ℚ
  avg_tool_calls : ℚ
  avg_turns : ℚ
  error_count : ℕ
  deriving DecidableEq

/-- A value of `by_split`. -/
structure BlockMetrics where
  num_tasks : ℕ
  num_samples : ℕ
  success_rate : ℚ
  pass_at_1 : ℚ
  pass_at_4 : ℚ
  pass_power_4 : ℚ
  pass_hat_4 : ℚ
  avg_tool_calls : ℚ
  avg_turns : ℚ
  error_rate : ℚ
  deriving DecidableEq

structure Report where
  success_rate : ℚ
  pass_at_1 : ℚ
  pass_at_4 : ℚ
  pass_power_4 : ℚ
  pass_hat_4 : ℚ
  error_rate : ℚ
  num_samples : ℕ
  num_tasks : ℕ
  avg_tool_calls : ℚ
  avg_turns : ℚ
  by_split : List (PyStr × BlockMetrics)
  per_task : List TaskEntry
  config : PyVal
  results : List EvalResult

/-! ### The split file -/

/-- `config.get("env", {}).get("split_file")` and the text of that file, if there is one. -/
def splitText (files : PyStr → Option PyStr) (config : PyVal) : Except PyErr (Option PyStr) := do
  let env ← config.get "env" (.dict [])
  let splitFile ← env.get "split_file"
  if splitFile.truthy then
    match splitFile with
    | .str path => .ok (files path)
    | v => .error ⟨.typeError, "expected str, bytes or os.PathLike object, not " ++ v.typeName⟩
  else .ok none

/-- `task_splits.update({int(task_id): name for task_id in task_ids})`. -/
def addSplit (name : PyStr) (taskIds : PyVal) (splits : List (ℤ × PyStr)) :
    Except PyErr (List (ℤ × PyStr)) := do
  let ids ← taskIds.iter
  let ids ← ids.mapM pyInt
  .ok (ids.foldl (fun splits taskId => upsert splits taskId fun _ => name) splits)

/-- `split_data.get("covered_seen_task_ids") or split_data.get("seen_task_ids", [])` -/
def coveredIds (data : PyVal) : Except PyErr PyVal := do
  let covered ← data.get "covered_seen_task_ids"
  if covered.truthy then .ok covered else data.get "seen_task_ids" (.list [])

/-- `task_splits`. A later list wins. -/
def taskSplits (py : Interp) (files : PyStr → Option PyStr) (config : PyVal) :
    Except PyErr (List (ℤ × PyStr)) := do
  match ← splitText files config with
  | none => .ok []
  | some text =>
    let data ← loads py.recursionLimit text
    let covered ← coveredIds data
    let uncovered ← data.get "uncovered_seen_task_ids" (.list [])
    let unseen ← data.get "unseen_task_ids" (.list [])
    let splits ← addSplit "covered_seen" covered []
    let splits ← addSplit "uncovered_seen" uncovered splits
    addSplit "unseen" unseen splits

/-- `task_splits.get(task_id)` -/
def splitOf (splits : List (ℤ × PyStr)) (taskId : ℤ) : Option PyStr := splits.lookup taskId

/-- `sorted(set(task_splits.values()))` -/
def splitNames (splits : List (ℤ × PyStr)) : List PyStr :=
  (fromKeys (splits.map Prod.snd)).insertionSort (· ≤ ·)

/-! ### The metrics -/

/-- `sorted(items, key=lambda item: item.sample_id)` -/
def bySample (items : List EvalResult) : List EvalResult :=
  items.insertionSort fun a b => a.sample_id ≤ b.sample_id

/-- `1.0 if condition else 0.0` -/
def indicator (condition : Bool) : ℚ := if condition then 1 else 0

/-- The sample of id `0` is there and has succeeded. -/
def firstSucceeds (ordered : List EvalResult) : Bool :=
  match ordered.find? (·.sample_id = 0) with
  | some item => item.success
  | none => false

/-- There are four samples, and their ids are `0` to `3`. -/
def hasFourSamples (ordered : List EvalResult) : Bool :=
  let ids := ordered.map EvalResult.sample_id
  ordered.length = 4 && ids.all ([0, 1, 2, 3].contains ·) && [0, 1, 2, 3].all (ids.contains ·)

structure TaskMetrics where
  pass_at_1 : ℚ
  pass_at_4 : ℚ
  pass_power_4 : ℚ

def taskMetrics (taskItems : List EvalResult) : TaskMetrics :=
  let ordered := bySample taskItems
  { pass_at_1 := indicator (firstSucceeds ordered)
    pass_at_4 := indicator ((ordered.take 4).any EvalResult.success)
    pass_power_4 := indicator (hasFourSamples ordered && ordered.all EvalResult.success) }

/-- `sum(f(item) for item in items) / len(items) if items else 0.0` -/
def average (f : EvalResult → ℚ) (items : List EvalResult) : ℚ := mean (items.map f)

/-- `sum(1 for item in items if p(item))` -/
def countIf (p : EvalResult → Bool) (items : List EvalResult) : ℕ := items.countP p

/-- `sum(1 for item in items if p(item)) / len(items) if items else 0.0` -/
def rate (p : EvalResult → Bool) (items : List EvalResult) : ℚ :=
  if items.isEmpty then 0 else countIf p items / items.length

/-- The metrics of a block of results: of a split, or of all of them. -/
def blockMetrics (results : List EvalResult) : BlockMetrics :=
  let byTask := groupBy EvalResult.task_id results
  let values := byTask.map fun (_, items) => taskMetrics items
  let powers := mean (values.map TaskMetrics.pass_power_4)
  { num_tasks := byTask.length
    num_samples := results.length
    success_rate := rate EvalResult.success results
    pass_at_1 := mean (values.map TaskMetrics.pass_at_1)
    pass_at_4 := mean (values.map TaskMetrics.pass_at_4)
    pass_power_4 := powers
    pass_hat_4 := powers
    avg_tool_calls := average (·.num_tool_calls) results
    avg_turns := average (·.num_turns) results
    error_rate := rate EvalResult.failed results }

/-- The entry of a task. -/
def taskEntry (splits : List (ℤ × PyStr)) (task : ℤ × List EvalResult) : TaskEntry :=
  let items := bySample task.2
  let power := indicator (hasFourSamples items && items.all EvalResult.success)
  { task_id := task.1
    split := (splitOf splits task.1).getD "unspecified"
    num_samples := items.length
    success_count := countIf EvalResult.success items
    pass_at_1 := indicator (firstSucceeds items)
    pass_at_4 := indicator ((items.take 4).any EvalResult.success)
    pass_power_4 := power
    pass_hat_4 := power
    avg_tool_calls := average (·.num_tool_calls) items
    avg_turns := average (·.num_turns) items
    error_count := countIf EvalResult.failed items }

/-- The results of the tasks of a split. -/
def splitResults (splits : List (ℤ × PyStr)) (name : PyStr) (results : List EvalResult) :
    List EvalResult := results.filter fun result => splitOf splits result.task_id = some name

/-- The report with these splits. -/
def reportOf (config : PyVal) (splits : List (ℤ × PyStr)) (results : List EvalResult) : Report :=
  let overall := blockMetrics results
  let perTask := (groupBy EvalResult.task_id results).insertionSort fun a b => a.1 ≤ b.1
  { success_rate := overall.success_rate
    pass_at_1 := overall.pass_at_1
    pass_at_4 := overall.pass_at_4
    pass_power_4 := overall.pass_power_4
    pass_hat_4 := overall.pass_hat_4
    error_rate := overall.error_rate
    num_samples := overall.num_samples
    num_tasks := overall.num_tasks
    avg_tool_calls := overall.avg_tool_calls
    avg_turns := overall.avg_turns
    by_split := (splitNames splits).map (fun name =>
      (name, blockMetrics (splitResults splits name results))) ++ [(("overall" : PyStr), overall)]
    per_task := perTask.map (taskEntry splits)
    config := config
    results := results }

def writeEvalReport (py : Interp) (files : PyStr → Option PyStr) (config : PyVal)
    (results : List EvalResult) : Except PyErr Report :=
  (taskSplits py files config).map fun splits => reportOf config splits results

/-! ### The order of the results -/

section Permutation

variable {results results' items items' : List EvalResult}

/-- No sample of a task occurs twice. -/
def Distinct (results : List EvalResult) : Prop :=
  (results.map fun result => (result.task_id, result.sample_id)).Nodup

theorem Distinct.eq_of_ids (h : Distinct results) {a b : EvalResult} (ha : a ∈ results)
    (hb : b ∈ results) (htask : a.task_id = b.task_id)
    (hsample : a.sample_id = b.sample_id) : a = b :=
  List.inj_on_of_nodup_map h ha hb (Prod.ext htask hsample)

theorem Distinct.filter (h : Distinct results) (p : EvalResult → Bool) :
    Distinct (results.filter p) :=
  List.Nodup.sublist (List.filter_sublist.map _) h

/-- The samples of a task are sorted alike. -/
theorem bySample_group (h : Distinct results) (hperm : results.Perm results') (taskId : ℤ) :
    bySample (group EvalResult.task_id taskId results) =
      bySample (group EvalResult.task_id taskId results') := by
  refine insertionSort_perm _ (fun a ha b hb hsample => ?_) (group_perm hperm)
  obtain ⟨ha, htask⟩ := List.mem_filter.mp ha
  obtain ⟨hb, htask'⟩ := List.mem_filter.mp hb
  exact h.eq_of_ids ha hb ((of_decide_eq_true htask).trans (of_decide_eq_true htask').symm) hsample

theorem taskMetrics_group (h : Distinct results) (hperm : results.Perm results') (taskId : ℤ) :
    taskMetrics (group EvalResult.task_id taskId results) =
      taskMetrics (group EvalResult.task_id taskId results') := by
  rw [taskMetrics, bySample_group h hperm taskId, taskMetrics]

theorem rate_perm (p : EvalResult → Bool) (hperm : results.Perm results') :
    rate p results = rate p results' := by
  rw [rate, rate, hperm.isEmpty_eq, countIf, hperm.countP_eq, countIf, hperm.length_eq]

theorem average_perm (f : EvalResult → ℚ) (hperm : results.Perm results') :
    average f results = average f results' :=
  mean_perm (hperm.map f)

/-- The metrics of the tasks of a block. -/
theorem blockValues_eq (results : List EvalResult) :
    ((groupBy EvalResult.task_id results).map fun (_, items) => taskMetrics items) =
      (fromKeys (results.map EvalResult.task_id)).map fun u =>
        taskMetrics (group EvalResult.task_id u results) := by
  rw [groupBy_eq, List.map_map]
  rfl

theorem length_groupBy (results : List EvalResult) :
    (groupBy EvalResult.task_id results).length =
      (fromKeys (results.map EvalResult.task_id)).length := by
  rw [groupBy_eq, List.length_map]

theorem blockMetrics_perm (h : Distinct results) (hperm : results.Perm results') :
    blockMetrics results = blockMetrics results' := by
  have hkeys : (fromKeys (results.map EvalResult.task_id)).Perm
      (fromKeys (results'.map EvalResult.task_id)) := fromKeys_perm_of_perm (hperm.map _)
  have hvalues : ((groupBy EvalResult.task_id results).map fun (_, items) => taskMetrics items).Perm
      ((groupBy EvalResult.task_id results').map fun (_, items) => taskMetrics items) := by
    rw [blockValues_eq, blockValues_eq]
    simp only [taskMetrics_group h hperm]
    exact hkeys.map _
  have hmean : ∀ f : TaskMetrics → ℚ,
      mean (((groupBy EvalResult.task_id results).map fun (_, items) => taskMetrics items).map f) =
        mean (((groupBy EvalResult.task_id results').map fun (_, items) => taskMetrics items).map f) :=
    fun f => mean_perm (hvalues.map f)
  rw [blockMetrics, blockMetrics]
  simp only [length_groupBy, hkeys.length_eq, hperm.length_eq, rate_perm _ hperm, hmean,
    average_perm _ hperm]

/-- The entries of the tasks, in the order of their ids. -/
theorem perTask_eq (splits : List (ℤ × PyStr)) (results : List EvalResult) :
    ((groupBy EvalResult.task_id results).insertionSort fun a b => a.1 ≤ b.1).map
    (taskEntry splits) =
      ((fromKeys (results.map EvalResult.task_id)).insertionSort (· ≤ ·)).map fun u =>
        taskEntry splits (u, group EvalResult.task_id u results) := by
  let entry := fun u => (u, group EvalResult.task_id u results)
  have hsorted : ((fromKeys (results.map EvalResult.task_id)).insertionSort (· ≤ ·)).map entry =
      ((fromKeys (results.map EvalResult.task_id)).map entry).insertionSort fun a b => a.1 ≤ b.1 :=
    List.map_insertionSort _ _ _ _ fun a _ b _ => Iff.rfl
  rw [groupBy_eq, ← hsorted, List.map_map]
  rfl

/-- **The order of the results does not matter.** Only the copy of the results is in another
order. -/
theorem reportOf_perm (config : PyVal) (splits : List (ℤ × PyStr)) (h : Distinct results)
    (hperm : results.Perm results') :
    reportOf config splits results' =
      { reportOf config splits results with results := results' } := by
  have hkeys : (fromKeys (results.map EvalResult.task_id)).insertionSort (· ≤ ·) =
      (fromKeys (results'.map EvalResult.task_id)).insertionSort (· ≤ ·) :=
    insertionSort_perm id (fun _ _ _ _ => id) (fromKeys_perm_of_perm (hperm.map _))
  have hentries : ∀ u, taskEntry splits (u, group EvalResult.task_id u results) =
      taskEntry splits (u, group EvalResult.task_id u results') := fun u => by
    rw [taskEntry, bySample_group h hperm u, taskEntry]
  have hblocks : ∀ name, blockMetrics (splitResults splits name results) =
      blockMetrics (splitResults splits name results') := fun name =>
    blockMetrics_perm (h.filter _) (hperm.filter _)
  rw [reportOf, reportOf]
  simp only [perTask_eq, hkeys, hentries, hblocks, blockMetrics_perm h hperm]

end Permutation

/-! ### The blocks of the report -/

/-- The blocks of the splits. -/
def Report.splits (report : Report) : List BlockMetrics :=
  (report.by_split.filter fun (block : PyStr × BlockMetrics) => block.1 ≠ "overall").map Prod.snd

/-- The tasks that are in no split. -/
def Report.unspecified (report : Report) : List TaskEntry :=
  report.per_task.filter fun entry => entry.split = "unspecified"

/-- A total over everything is the total over the splits and over the tasks that are in none. -/
def Adds (report : Report) (overall : ℚ) (ofBlock : BlockMetrics → ℚ)
    (ofTask : TaskEntry → ℚ) : Prop :=
  overall = (report.splits.map ofBlock).sum + (report.unspecified.map ofTask).sum

/-- **Consistency of a report.** -/
structure Consistent (report : Report) : Prop where
  pass_at_1_mean : report.pass_at_1 = mean (report.per_task.map TaskEntry.pass_at_1)
  pass_at_4_mean : report.pass_at_4 = mean (report.per_task.map TaskEntry.pass_at_4)
  pass_hat_4_mean : report.pass_hat_4 = mean (report.per_task.map TaskEntry.pass_hat_4)
  pass_at_1 : Adds report (report.num_tasks * report.pass_at_1)
    (fun block => block.num_tasks * block.pass_at_1) TaskEntry.pass_at_1
  pass_at_4 : Adds report (report.num_tasks * report.pass_at_4)
    (fun block => block.num_tasks * block.pass_at_4) TaskEntry.pass_at_4
  pass_hat_4 : Adds report (report.num_tasks * report.pass_hat_4)
    (fun block => block.num_tasks * block.pass_hat_4) TaskEntry.pass_hat_4
  success_rate : Adds report (report.num_samples * report.success_rate)
    (fun block => block.num_samples * block.success_rate) fun entry => entry.success_count
  error_rate : Adds report (report.num_samples * report.error_rate)
    (fun block => block.num_samples * block.error_rate) fun entry => entry.error_count
  avg_tool_calls : Adds report (report.num_samples * report.avg_tool_calls)
    (fun block => block.num_samples * block.avg_tool_calls)
    fun entry => entry.num_samples * entry.avg_tool_calls
  avg_turns : Adds report (report.num_samples * report.avg_turns)
    (fun block => block.num_samples * block.avg_turns)
    fun entry => entry.num_samples * entry.avg_turns

/-- The names that the split file can give. -/
def Named (splits : List (ℤ × PyStr)) : Prop :=
  ∀ entry ∈ splits, entry.2 = "covered_seen" ∨ entry.2 = "uncovered_seen" ∨ entry.2 = "unseen"

theorem foldl_named {name : PyStr} (ids : List ℤ)
    (hname : name = "covered_seen" ∨ name = "uncovered_seen" ∨ name = "unseen") :
    ∀ {splits : List (ℤ × PyStr)}, Named splits →
      Named (ids.foldl (fun splits taskId => upsert splits taskId fun _ => name) splits) := by
  induction ids with
  | nil => exact fun hsplits => hsplits
  | cons taskId ids ih =>
    intro splits hsplits
    refine ih fun entry hentry => ?_
    rcases mem_upsert_const hentry with heq | hmem
    · rw [heq]
      exact hname
    · exact hsplits entry hmem

theorem addSplit_named {name : PyStr} {taskIds : PyVal} {splits splits' : List (ℤ × PyStr)}
    (hname : name = "covered_seen" ∨ name = "uncovered_seen" ∨ name = "unseen")
    (hsplits : Named splits) (h : addSplit name taskIds splits = .ok splits') : Named splits' := by
  obtain ⟨ids, -, h⟩ := bind_eq_ok.mp h
  obtain ⟨ids, -, h⟩ := bind_eq_ok.mp h
  obtain rfl := Except.ok.inj h
  exact foldl_named ids hname hsplits

theorem taskSplits_named {py : Interp} {files : PyStr → Option PyStr} {config : PyVal}
    {splits : List (ℤ × PyStr)} (h : taskSplits py files config = .ok splits) : Named splits := by
  obtain ⟨text, -, h⟩ := bind_eq_ok.mp h
  rcases text with - | text
  · obtain rfl := Except.ok.inj h
    exact nofun
  · obtain ⟨data, -, h⟩ := bind_eq_ok.mp h
    obtain ⟨covered, -, h⟩ := bind_eq_ok.mp h
    obtain ⟨uncovered, -, h⟩ := bind_eq_ok.mp h
    obtain ⟨unseen, -, h⟩ := bind_eq_ok.mp h
    obtain ⟨first, hfirst, h⟩ := bind_eq_ok.mp h
    obtain ⟨second, hsecond, h⟩ := bind_eq_ok.mp h
    have hnil : Named [] := nofun
    have hnamed : Named first := addSplit_named (.inl rfl) hnil hfirst
    exact addSplit_named (.inr (.inr rfl)) (addSplit_named (.inr (.inl rfl)) hnamed hsecond) h

section Splits

variable {splits : List (ℤ × PyStr)} {results : List EvalResult}

theorem nodup_splitNames (splits : List (ℤ × PyStr)) : (splitNames splits).Nodup :=
  (List.perm_insertionSort _ _).nodup_iff.mpr (nodup_fromKeys _)

theorem mem_splitNames {name : PyStr} :
    name ∈ splitNames splits ↔ ∃ taskId, (taskId, name) ∈ splits := by
  rw [splitNames, List.mem_insertionSort, mem_fromKeys, List.mem_map]
  constructor
  · rintro ⟨⟨taskId, name⟩, hmem, rfl⟩
    exact ⟨taskId, hmem⟩
  · rintro ⟨taskId, hmem⟩
    exact ⟨(taskId, name), hmem, rfl⟩

theorem splitOf_mem {taskId : ℤ} {name : PyStr} (h : splitOf splits taskId = some name) :
    (taskId, name) ∈ splits := by
  obtain ⟨before, after, rfl, -⟩ := List.lookup_eq_some_iff.mp h
  simp

/-- **A total is added up split by split.** -/
theorem sum_by_split {ρ : Type} (splits : List (ℤ × PyStr)) (key : ρ → ℤ) (g : ρ → ℚ)
    (rows : List ρ) :
    (rows.map g).sum =
      ((splitNames splits).map fun name =>
        ((rows.filter fun r => splitOf splits (key r) = some name).map g).sum).sum +
      ((rows.filter fun r => splitOf splits (key r) = none).map g).sum := by
  have hnodup : ((splitNames splits).map some ++ [none]).Nodup := by
    refine List.nodup_append.mpr ⟨(nodup_splitNames splits).map (Option.some_injective _),
      List.nodup_singleton _, fun a ha b hb => ?_⟩
    obtain ⟨name, -, rfl⟩ := List.mem_map.mp ha
    rw [List.mem_singleton.mp hb]
    exact nofun
  have hmem : ∀ r ∈ rows, splitOf splits (key r) ∈ (splitNames splits).map some ++ [none] := by
    intro r _
    rcases hsplit : splitOf splits (key r) with - | name
    · simp
    · have hname : name ∈ splitNames splits := mem_splitNames.mpr ⟨_, splitOf_mem hsplit⟩
      simp [hname]
  rw [sum_eq_sum_groups (fun r => splitOf splits (key r)) g hnodup hmem, List.map_append,
    List.sum_append, List.map_map, List.map_singleton, List.sum_singleton]
  rfl

/-- The total of a metric of the tasks of a block. -/
theorem blockTotal (f : TaskMetrics → ℚ) (results : List EvalResult) :
    ((groupBy EvalResult.task_id results).length : ℚ) *
        mean (((groupBy EvalResult.task_id results).map fun (_, items) => taskMetrics items).map f) =
      ((fromKeys (results.map EvalResult.task_id)).map fun u =>
        f (taskMetrics (group EvalResult.task_id u results))).sum := by
  have hlength : (groupBy EvalResult.task_id results).length =
      (((groupBy EvalResult.task_id results).map fun (_, items) => taskMetrics items).map f).length := by
    rw [List.length_map, List.length_map]
  rw [hlength, length_mul_mean, blockValues_eq, List.map_map]
  rfl

/-- The total over the results of the tasks that are selected, task by task. -/
theorem resultTotal_filter (g : EvalResult → ℚ) (p : ℤ → Bool) (results : List EvalResult) :
    ((results.filter fun result => p result.task_id).map g).sum =
      (((fromKeys (results.map EvalResult.task_id)).filter p).map fun u =>
        ((group EvalResult.task_id u results).map g).sum).sum := by
  rw [sum_groupBy EvalResult.task_id]
  exact congrArg List.sum (map_group_filter _ p (fun items => (items.map g).sum) results)

theorem countIf_eq_sum (p : EvalResult → Bool) (items : List EvalResult) :
    (countIf p items : ℚ) = (items.map fun item => indicator (p item)).sum := by
  rw [countIf]
  induction items with
  | nil => rfl
  | cons item items ih =>
    rw [List.countP_cons, List.map_cons, List.sum_cons, ← ih, indicator, Nat.cast_add, add_comm]
    split
    · rw [Nat.cast_one]
    · rw [Nat.cast_zero]

theorem rate_eq_mean (p : EvalResult → Bool) (items : List EvalResult) :
    rate p items = mean (items.map fun item => indicator (p item)) := by
  rw [rate, mean, countIf_eq_sum, List.isEmpty_map, List.length_map]

/-! ### The blocks add up -/

variable {config : PyVal}

theorem reportOf_splits (hnamed : Named splits) :
    (reportOf config splits results).splits =
      (splitNames splits).map fun name => blockMetrics (splitResults splits name results) := by
  let block := fun name => (name, blockMetrics (splitResults splits name results))
  have hkept : ∀ entry ∈ (splitNames splits).map block, decide (entry.1 ≠ "overall") = true := by
    intro entry hentry
    obtain ⟨name, hname, rfl⟩ := List.mem_map.mp hentry
    obtain ⟨taskId, hmem⟩ := mem_splitNames.mp hname
    have hcases : name = "covered_seen" ∨ name = "uncovered_seen" ∨ name = "unseen" :=
      hnamed _ hmem
    rcases hcases with rfl | rfl | rfl
    · rfl
    · rfl
    · rfl
  rw [Report.splits, reportOf]
  dsimp only
  rw [List.filter_append, List.filter_eq_self.mpr hkept]
  show (List.map block (splitNames splits) ++ []).map Prod.snd = _
  rw [List.append_nil, List.map_map]
  rfl

theorem reportOf_unspecified (hnamed : Named splits) (ofTask : TaskEntry → ℚ) :
    (((reportOf config splits results).unspecified).map ofTask).sum =
      (((fromKeys (results.map EvalResult.task_id)).filter fun u => splitOf splits u = none).map
        fun u => ofTask (taskEntry splits (u, group EvalResult.task_id u results))).sum := by
  let entry := fun u => taskEntry splits (u, group EvalResult.task_id u results)
  have hselect : ∀ u, decide ((entry u).split = "unspecified") =
      decide (splitOf splits u = none) := by
    intro u
    show decide ((splitOf splits u).getD "unspecified" = "unspecified") = _
    rcases hsplit : splitOf splits u with - | name
    · rfl
    · have hcases : name = "covered_seen" ∨ name = "uncovered_seen" ∨ name = "unseen" :=
        hnamed _ (splitOf_mem hsplit)
      rcases hcases with rfl | rfl | rfl
      · rfl
      · rfl
      · rfl
  rw [Report.unspecified, reportOf]
  dsimp only
  rw [perTask_eq, List.filter_map, List.map_map]
  have hfilter : ((fromKeys (results.map EvalResult.task_id)).insertionSort (· ≤ ·)).filter
      ((fun e : TaskEntry => decide (e.split = "unspecified")) ∘ entry) =
    ((fromKeys (results.map EvalResult.task_id)).insertionSort (· ≤ ·)).filter
      fun u => splitOf splits u = none := List.filter_congr fun u _ => hselect u
  rw [show (fun u => taskEntry splits (u, group EvalResult.task_id u results)) =
    entry from rfl, hfilter]
  exact (((List.perm_insertionSort _ _).filter _).map _).sum_eq

/-- The tasks: a metric of the tasks adds up, block by block. -/
theorem tasks_add (hnamed : Named splits) (f : TaskMetrics → ℚ) (overall : BlockMetrics → ℚ)
    {ofTask : TaskEntry → ℚ}
    (hofTask : ∀ u items, ofTask (taskEntry splits (u, items)) = f (taskMetrics items))
    (hoverall : ∀ results, overall (blockMetrics results) =
      mean (((groupBy EvalResult.task_id results).map fun (_, items) => taskMetrics items).map f)) :
    Adds (reportOf config splits results)
      ((blockMetrics results).num_tasks * overall (blockMetrics results))
      (fun block => block.num_tasks * overall block) ofTask := by
  have htotal : ∀ results : List EvalResult,
      ((blockMetrics results).num_tasks : ℚ) * overall (blockMetrics results) =
        ((fromKeys (results.map EvalResult.task_id)).map fun u =>
          f (taskMetrics (group EvalResult.task_id u results))).sum := fun results => by
    rw [hoverall, ← blockTotal f results, blockMetrics]
  rw [Adds, reportOf_splits hnamed, reportOf_unspecified hnamed, htotal, List.map_map]
  simp only [Function.comp_def, htotal, hofTask, splitResults]
  rw [sum_by_split splits id]
  congr 2
  refine List.map_congr_left fun name _ => congrArg List.sum ?_
  exact (map_group_filter EvalResult.task_id (fun u => decide (splitOf splits u = some name))
    (fun items => f (taskMetrics items)) results).symm

/-- The results: a value of the results adds up, block by block. -/
theorem samples_add (hnamed : Named splits) (g : EvalResult → ℚ) (overall : BlockMetrics → ℚ)
    {ofTask : TaskEntry → ℚ}
    (hofTask : ∀ u items, ofTask (taskEntry splits (u, items)) = (items.map g).sum)
    (hoverall : ∀ results, overall (blockMetrics results) = mean (results.map g)) :
    Adds (reportOf config splits results)
      ((blockMetrics results).num_samples * overall (blockMetrics results))
      (fun block => block.num_samples * overall block) ofTask := by
  have htotal : ∀ results : List EvalResult,
      ((blockMetrics results).num_samples : ℚ) * overall (blockMetrics results) =
        (results.map g).sum := fun results => by
    rw [hoverall, ← length_mul_mean, List.length_map, blockMetrics]
  rw [Adds, reportOf_splits hnamed, reportOf_unspecified hnamed, htotal, List.map_map]
  simp only [Function.comp_def, htotal, hofTask, splitResults]
  rw [sum_by_split splits EvalResult.task_id,
    resultTotal_filter g (fun u => decide (splitOf splits u = none)) results]

/-- The mean of a metric over the entries. -/
theorem mean_perTask (f : TaskMetrics → ℚ) {ofTask : TaskEntry → ℚ}
    (hofTask : ∀ u items, ofTask (taskEntry splits (u, items)) = f (taskMetrics items)) :
    mean (((groupBy EvalResult.task_id results).map fun (_, items) => taskMetrics items).map f) =
      mean ((reportOf config splits results).per_task.map ofTask) := by
  rw [reportOf]
  dsimp only
  rw [perTask_eq, blockValues_eq, List.map_map, List.map_map]
  simp only [Function.comp_def, hofTask]
  exact mean_perm ((List.perm_insertionSort _ _).symm.map _)

/-- What an entry says of the results of its task. -/
theorem taskEntry_total (g : EvalResult → ℚ) (items : List EvalResult) :
    ((bySample items).map g).sum = (items.map g).sum :=
  ((List.perm_insertionSort _ items).map g).sum_eq

theorem length_mul_average (g : EvalResult → ℚ) (items : List EvalResult) :
    (items.length : ℚ) * average g items = (items.map g).sum := by
  rw [average, ← length_mul_mean, List.length_map]

/-- **The blocks of a report add up.** -/
theorem reportOf_consistent (hnamed : Named splits) :
    Consistent (reportOf config splits results) where
  pass_at_1_mean := mean_perTask TaskMetrics.pass_at_1 fun _ _ => rfl
  pass_at_4_mean := mean_perTask TaskMetrics.pass_at_4 fun _ _ => rfl
  pass_hat_4_mean := mean_perTask TaskMetrics.pass_power_4 fun _ _ => rfl
  pass_at_1 := tasks_add hnamed TaskMetrics.pass_at_1 BlockMetrics.pass_at_1
    (fun _ _ => rfl) fun _ => rfl
  pass_at_4 := tasks_add hnamed TaskMetrics.pass_at_4 BlockMetrics.pass_at_4
    (fun _ _ => rfl) fun _ => rfl
  pass_hat_4 := tasks_add hnamed TaskMetrics.pass_power_4 BlockMetrics.pass_hat_4
    (fun _ _ => rfl) fun _ => rfl
  success_rate := samples_add hnamed _ BlockMetrics.success_rate
    (fun _ items => (countIf_eq_sum _ _).trans (taskEntry_total _ items))
    fun results => rate_eq_mean EvalResult.success results
  error_rate := samples_add hnamed _ BlockMetrics.error_rate
    (fun _ items => (countIf_eq_sum _ _).trans (taskEntry_total _ items))
    fun results => rate_eq_mean EvalResult.failed results
  avg_tool_calls := samples_add hnamed _ BlockMetrics.avg_tool_calls
    (fun _ items => (length_mul_average _ _).trans (taskEntry_total _ items)) fun _ => rfl
  avg_turns := samples_add hnamed _ BlockMetrics.avg_turns
    (fun _ items => (length_mul_average _ _).trans (taskEntry_total _ items)) fun _ => rfl

end Splits

/-! ### The report -/

/-- **The report is consistent.** It does not depend on the order of the results, apart from the
copy of them, and its blocks agree. -/
theorem writeEvalReport_consistent (py : Interp) (files : PyStr → Option PyStr) (config : PyVal)
    {results : List EvalResult} (h : Distinct results) :
    (∀ results', results.Perm results' → writeEvalReport py files config results' =
      (writeEvalReport py files config results).map
        fun report => { report with results := results' }) ∧
    ∀ report, writeEvalReport py files config results = .ok report → Consistent report := by
  constructor
  · intro results' hperm
    rw [writeEvalReport, writeEvalReport]
    rcases taskSplits py files config with e | splits
    · rfl
    · exact congrArg Except.ok (reportOf_perm config splits h hperm)
  · intro report hreport
    obtain ⟨splits, hsplits, rfl⟩ := map_eq_ok.mp hreport
    exact reportOf_consistent (taskSplits_named hsplits)

/-- A task of one list, a task of two lists, and a task of none. -/
def sampleResults : List EvalResult :=
  [⟨7, 1, true, .fin 1, 4, 3, none⟩, ⟨2, 0, true, .fin 1, 2, 1, none⟩, ⟨7, 0, false, .fin 0, 9, 6, some ""⟩,
    ⟨5, 0, false, .fin 0, 1, 0, some "TimeoutError: timed out"⟩]

def sampleConfig : PyVal := .dict [("env", .dict [("split_file", .str "split.json")])]

def sampleFiles (_path : PyStr) : Option PyStr :=
  some "\x7b\"seen_task_ids\": [2, 7], \"unseen_task_ids\": [\"7\"]\x7d"

theorem writeEvalReport_consistent_sample : ∃ report,
    writeEvalReport .silent sampleFiles sampleConfig sampleResults = .ok report ∧
    writeEvalReport .silent sampleFiles sampleConfig sampleResults.reverse =
      .ok { report with results := sampleResults.reverse } ∧
    report.num_tasks = 3 ∧ report.pass_at_1 = 1 / 3 ∧ Consistent report := by
  have hrun : (writeEvalReport .silent sampleFiles sampleConfig sampleResults).map
      (fun report => (report.num_tasks, report.pass_at_1)) = .ok (3, 1 / 3) := by decide +kernel
  obtain ⟨report, hreport, hvalues⟩ := map_eq_ok.mp hrun
  obtain ⟨htasks, hpass⟩ := Prod.mk.inj hvalues
  have hdistinct : Distinct sampleResults := by
    rw [Distinct]
    decide
  obtain ⟨hperm, hconsistent⟩ :=
    writeEvalReport_consistent .silent sampleFiles sampleConfig hdistinct
  refine ⟨report, hreport, ?_, htasks, hpass, hconsistent report hreport⟩
  rw [hperm _ (List.reverse_perm _).symm, hreport]
  rfl

/-! ### The order of the metrics -/

section Order

variable {items results : List EvalResult}

theorem indicator_le {p q : Bool} (h : p = true → q = true) : indicator p ≤ indicator q := by
  rcases p with - | -
  · rcases q with - | -
    · exact le_rfl
    · exact zero_le_one
  · rw [h rfl]

/-- The first sample is among the first four: in the order of the ids, the samples with id `0` come
first. -/
theorem any_of_firstSucceeds (hids : ∀ item ∈ items, 0 ≤ item.sample_id)
    (h : firstSucceeds (bySample items) = true) :
    ((bySample items).take 4).any EvalResult.success = true := by
  have hsorted : (bySample items).Pairwise fun a b => a.sample_id ≤ b.sample_id :=
    List.pairwise_insertionSort _ items
  have hids : ∀ item ∈ bySample items, 0 ≤ item.sample_id := fun item hitem =>
    hids item ((List.mem_insertionSort _).mp hitem)
  revert h hsorted hids
  rcases bySample items with - | ⟨first, rest⟩
  · intro h
    cases h
  · intro h hsorted hids
    have hfirst : first.success = true := by
      by_cases hzero : first.sample_id = 0
      · simpa [firstSucceeds, hzero] using h
      · have hrest : rest.find? (·.sample_id = 0) = none := by
          refine List.find?_eq_none.mpr fun item hitem => ?_
          have hle : first.sample_id ≤ item.sample_id := List.rel_of_pairwise_cons hsorted hitem
          have hpos : 0 ≤ first.sample_id := hids first List.mem_cons_self
          simp only [decide_eq_true_eq]
          omega
        simp [firstSucceeds, hzero, hrest] at h
    rw [List.take_succ_cons, List.any_cons, hfirst, Bool.true_or]

/-- If all four samples succeed, so does the one with id `0`. -/
theorem firstSucceeds_of_all {ordered : List EvalResult}
    (h : (hasFourSamples ordered && ordered.all EvalResult.success) = true) :
    firstSucceeds ordered = true := by
  obtain ⟨hfour, hall⟩ := Bool.and_eq_true_iff.mp h
  have hzero : (0 : ℤ) ∈ ordered.map EvalResult.sample_id := by
    simp only [hasFourSamples, Bool.and_eq_true, List.all_eq_true, List.contains_iff_mem] at hfour
    exact hfour.2 0 List.mem_cons_self
  obtain ⟨item, hitem, hid⟩ := List.mem_map.mp hzero
  have hsome : (ordered.find? (·.sample_id = 0)).isSome = true :=
    List.find?_isSome.mpr ⟨item, hitem, decide_eq_true hid⟩
  obtain ⟨found, hfound⟩ := Option.isSome_iff_exists.mp hsome
  rw [firstSucceeds, hfound]
  exact List.all_eq_true.mp hall found (List.mem_of_find?_eq_some hfound)

theorem taskMetrics_ordered (hids : ∀ item ∈ items, 0 ≤ item.sample_id) :
    (taskMetrics items).pass_power_4 ≤ (taskMetrics items).pass_at_1 ∧
      (taskMetrics items).pass_at_1 ≤ (taskMetrics items).pass_at_4 :=
  ⟨indicator_le firstSucceeds_of_all, indicator_le (any_of_firstSucceeds hids)⟩

/-- The samples of a task are `0`, `1`, `2` and `3`, each once and in any order. -/
def IsFour (items : List EvalResult) : Prop := (items.map EvalResult.sample_id).Perm [0, 1, 2, 3]

theorem IsFour.length_eq (h : IsFour items) : items.length = 4 := by
  rw [← List.length_map EvalResult.sample_id, List.Perm.length_eq h]
  rfl

/-- The rate of success of a task with four samples is between its metrics. -/
theorem taskMetrics_rate (h : IsFour items) :
    (taskMetrics items).pass_power_4 ≤ mean (items.map fun item => indicator item.success) ∧
      mean (items.map fun item => indicator item.success) ≤ (taskMetrics items).pass_at_4 := by
  have hitems : items ≠ [] := fun hnil => by
    have hlength := h.length_eq
    rw [hnil] at hlength
    cases hlength
  have hsort : ∀ item ∈ items, item ∈ bySample items := fun item hitem =>
    (List.mem_insertionSort _).mpr hitem
  constructor
  · rw [← mean_const hitems (taskMetrics items).pass_power_4]
    refine mean_le_mean fun item hitem => indicator_le fun hpower => ?_
    exact List.all_eq_true.mp (Bool.and_eq_true_iff.mp hpower).2 item (hsort item hitem)
  · rw [← mean_const hitems (taskMetrics items).pass_at_4]
    refine mean_le_mean fun item hitem => indicator_le fun hsuccess => ?_
    have htake : (bySample items).take 4 = bySample items := by
      rw [List.take_of_length_le]
      rw [bySample, List.length_insertionSort, h.length_eq]
    rw [htake]
    exact List.any_eq_true.mpr ⟨item, hsort item hitem, hsuccess⟩

/-! ### The order of the metrics of a block -/

/-- A comparison of two metrics of the tasks of a block. -/
theorem blockMean_le {f g : TaskMetrics → ℚ}
    (h : ∀ u, f (taskMetrics (group EvalResult.task_id u results)) ≤
      g (taskMetrics (group EvalResult.task_id u results))) :
    mean (((groupBy EvalResult.task_id results).map fun (_, items) => taskMetrics items).map f) ≤
      mean (((groupBy EvalResult.task_id results).map fun (_, items) => taskMetrics items).map g) := by
  rw [blockValues_eq, List.map_map, List.map_map]
  exact mean_le_mean fun u _ => h u

theorem blockMetrics_ordered (hids : ∀ result ∈ results, 0 ≤ result.sample_id) :
    (blockMetrics results).pass_hat_4 ≤ (blockMetrics results).pass_at_1 ∧
      (blockMetrics results).pass_at_1 ≤ (blockMetrics results).pass_at_4 := by
  have htask : ∀ u, (taskMetrics (group EvalResult.task_id u results)).pass_power_4 ≤
      (taskMetrics (group EvalResult.task_id u results)).pass_at_1 ∧
      (taskMetrics (group EvalResult.task_id u results)).pass_at_1 ≤
        (taskMetrics (group EvalResult.task_id u results)).pass_at_4 := fun u =>
    taskMetrics_ordered fun item hitem => hids item (List.mem_filter.mp hitem).1
  exact ⟨blockMean_le fun u => (htask u).1, blockMean_le fun u => (htask u).2⟩

/-- Each task has exactly the samples `0` to `3`. -/
def FourSamples (results : List EvalResult) : Prop :=
  ∀ result ∈ results, IsFour (group EvalResult.task_id result.task_id results)

instance (results : List EvalResult) : Decidable (FourSamples results) :=
  inferInstanceAs (Decidable (∀ result ∈ results,
    ((group EvalResult.task_id result.task_id results).map EvalResult.sample_id).Perm [0, 1, 2, 3]))

theorem FourSamples.isFour (h : FourSamples results) {u : ℤ}
    (hu : u ∈ results.map EvalResult.task_id) : IsFour (group EvalResult.task_id u results) := by
  obtain ⟨result, hresult, rfl⟩ := List.mem_map.mp hu
  exact h result hresult

/-- A split takes all samples of a task or none. -/
theorem FourSamples.split (h : FourSamples results) (splits : List (ℤ × PyStr)) (name : PyStr) :
    FourSamples (splitResults splits name results) := by
  intro result hresult
  obtain ⟨hresult, hsplit⟩ := List.mem_filter.mp hresult
  rw [splitResults, group_filter (p := fun u => decide (splitOf splits u = some name)) hsplit]
  exact h result hresult

/-- All tasks have four samples, so the rate of the results is the mean of the rates of the
tasks. -/
theorem FourSamples.rate_eq (h : FourSamples results) :
    rate EvalResult.success results =
      mean ((fromKeys (results.map EvalResult.task_id)).map fun u =>
        mean ((group EvalResult.task_id u results).map fun item => indicator item.success)) := by
  rw [rate_eq_mean]
  exact mean_groups EvalResult.task_id _ fun u hu => (h.isFour hu).length_eq

theorem FourSamples.rate_ordered (h : FourSamples results) :
    (blockMetrics results).pass_hat_4 ≤ (blockMetrics results).success_rate ∧
      (blockMetrics results).success_rate ≤ (blockMetrics results).pass_at_4 := by
  have htask : ∀ u ∈ fromKeys (results.map EvalResult.task_id), _ := fun u hu =>
    taskMetrics_rate (h.isFour (mem_fromKeys.mp hu))
  rw [blockMetrics]
  dsimp only
  rw [h.rate_eq, blockValues_eq, List.map_map, List.map_map]
  exact ⟨mean_le_mean fun u hu => (htask u hu).1, mean_le_mean fun u hu => (htask u hu).2⟩

/-- The blocks of a report are metrics of results of it. -/
theorem reportOf_by_split {config : PyVal} {splits : List (ℤ × PyStr)}
    {block : PyStr × BlockMetrics} (h : block ∈ (reportOf config splits results).by_split) :
    (∃ name, block.2 = blockMetrics (splitResults splits name results)) ∨
      block.2 = blockMetrics results := by
  rcases List.mem_append.mp h with hmem | hmem
  · obtain ⟨name, -, rfl⟩ := List.mem_map.mp hmem
    exact .inl ⟨name, rfl⟩
  · rw [List.mem_singleton.mp hmem]
    exact .inr rfl

/-- **The metrics are ordered.** In each task, in each block and in the report `pass^4` is at most
`pass@1`, and `pass@1` is at most `pass@4`. If all tasks have four samples, the rate of success of
each block and of the report is between `pass^4` and `pass@4`. -/
theorem writeEvalReport_ordered (py : Interp) (files : PyStr → Option PyStr) (config : PyVal)
    {report : Report} (hids : ∀ result ∈ results, 0 ≤ result.sample_id)
    (h : writeEvalReport py files config results = .ok report) :
    (∀ entry ∈ report.per_task, entry.pass_hat_4 ≤ entry.pass_at_1 ∧
    entry.pass_at_1 ≤ entry.pass_at_4) ∧
    (∀ block ∈ report.by_split, block.2.pass_hat_4 ≤ block.2.pass_at_1 ∧
      block.2.pass_at_1 ≤ block.2.pass_at_4) ∧
    (report.pass_hat_4 ≤ report.pass_at_1 ∧ report.pass_at_1 ≤ report.pass_at_4) ∧
    (FourSamples results →
      (∀ block ∈ report.by_split, block.2.pass_hat_4 ≤ block.2.success_rate ∧
        block.2.success_rate ≤ block.2.pass_at_4) ∧
      report.pass_hat_4 ≤ report.success_rate ∧ report.success_rate ≤ report.pass_at_4) := by
  obtain ⟨splits, -, rfl⟩ := map_eq_ok.mp h
  refine ⟨fun entry hentry => ?_, fun block hblock => ?_, blockMetrics_ordered hids,
    fun hfour => ?_⟩
  · obtain ⟨task, htask, rfl⟩ := List.mem_map.mp hentry
    have hmem : task ∈ groupBy EvalResult.task_id results := (List.mem_insertionSort _).mp htask
    rw [groupBy_eq] at hmem
    obtain ⟨u, -, rfl⟩ := List.mem_map.mp hmem
    exact taskMetrics_ordered fun item hitem => hids item (List.mem_filter.mp hitem).1
  · rcases reportOf_by_split hblock with ⟨name, hmetrics⟩ | hmetrics
    · rw [hmetrics]
      exact blockMetrics_ordered fun result hresult => hids result (List.mem_filter.mp hresult).1
    · rw [hmetrics]
      exact blockMetrics_ordered hids
  · refine ⟨fun block hblock => ?_, hfour.rate_ordered⟩
    rcases reportOf_by_split hblock with ⟨name, hmetrics⟩ | hmetrics
    · rw [hmetrics]
      exact (hfour.split splits name).rate_ordered
    · rw [hmetrics]
      exact hfour.rate_ordered

/-- A task with its four samples, in another order, and a task of another split with its four. -/
def fourSamples : List EvalResult :=
  [⟨7, 2, true, .fin 1, 4, 3, none⟩, ⟨2, 0, true, .fin 1, 2, 1, none⟩, ⟨7, 0, false, .fin 0, 9, 6, none⟩,
    ⟨7, 3, false, .fin 0, 1, 0, none⟩, ⟨2, 3, true, .fin 1, 2, 1, none⟩,
      ⟨2, 1, true, .fin 1, 2, 1, none⟩,
    ⟨7, 1, false, .fin 0, 1, 0, none⟩, ⟨2, 2, true, .fin 1, 2, 1, none⟩]

theorem writeEvalReport_ordered_four : ∃ report,
    writeEvalReport .silent sampleFiles sampleConfig fourSamples = .ok report ∧
    (report.pass_hat_4, report.success_rate, report.pass_at_4) = (1 / 2, 5 / 8, 1) ∧
    report.pass_hat_4 ≤ report.pass_at_1 ∧ report.pass_at_1 ≤ report.pass_at_4 ∧
    report.pass_hat_4 ≤ report.success_rate ∧ report.success_rate ≤ report.pass_at_4 := by
  have hrun : (writeEvalReport .silent sampleFiles sampleConfig fourSamples).map
      (fun report => (report.pass_hat_4, report.success_rate, report.pass_at_4)) =
        .ok (1 / 2, 5 / 8, 1) := by decide +kernel
  obtain ⟨report, hreport, hvalues⟩ := map_eq_ok.mp hrun
  have hids : ∀ result ∈ fourSamples, 0 ≤ result.sample_id := by decide
  have hfour : FourSamples fourSamples := by decide
  obtain ⟨-, -, ⟨hhat, hone⟩, hrates⟩ :=
    writeEvalReport_ordered .silent sampleFiles sampleConfig hids hreport
  exact ⟨report, hreport, hvalues, hhat, hone, (hrates hfour).2⟩

end Order

end Evaluation

end ToolAgent
