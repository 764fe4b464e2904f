import Mathlib.Algebra.BigOperators.Group.List.Basic
import Mathlib.Data.List.Dedup
import Mathlib.Data.List.Sort
import ToolAgent.Library.Interleaving
import ToolAgent.Python.Lines
import ToolAgent.Sft.Rollout

/-!
# Collection of training data

`collect_sft_data` in `teacher_rollout` mode: a worker for each task samples trajectories and writes
them to the files of that task, the tasks are split into seen and held out ones, and the files of
the successful trajectories are merged.

The workers run concurrently over one output directory. A worker is a machine that takes one file
operation at a time, and a run is any schedule of such steps.

## Main definitions

* `collectOneTask` — a step of the worker of a task
* `buildSplit`, `mergeSuccessFiles` — what follows once every worker has returned
* `collect` — a whole run, for a schedule

## Main results

* `collectOneTask_isolated` — no two workers write to the same file
* `collect_pure` — what a completed run leaves in the training and the evaluation files
-/

namespace ToolAgent

namespace Collect

open Python

/-! ### Files -/

/-- The contents of the files of the output directory. -/
abbrev Files := PyStr → Option PyStr

/-- The files of one task. -/
inductive FileKind where
  | outFile
  | contaminatedFile
  | metaFile
  deriving DecidableEq

def FileKind.suffix : FileKind → PyStr
  | .outFile => ".jsonl"
  | .contaminatedFile => "_contaminated.jsonl"
  | .metaFile => ".meta.json"

def fileName (taskId : ℤ) (kind : FileKind) : PyStr :=
  PyStr.ofString "task_" ++ format04d taskId ++ kind.suffix

/-- The files of one task, as they stand in the directory. -/
def taskFiles (taskId : ℤ) (files : Files) (kind : FileKind) : Option PyStr :=
  files (fileName taskId kind)

/-- What a worker does to the files of its task. -/
inductive Op where
  /-- `open(path, "w")` -/
  | create (kind : FileKind)
  /-- `f.write(text)` -/
  | write (kind : FileKind) (text : PyStr)

def Op.kind : Op → FileKind
  | .create kind => kind
  | .write kind _ => kind

/-- What the file holds afterwards. -/
def Op.content (old : Option PyStr) : Op → PyStr
  | .create _ => []
  | .write _ text => old.getD [] ++ text

/-- A text with a lone surrogate cannot be encoded. -/
def Op.allowed : Op → Bool
  | .create _ => true
  | .write _ text => encodable text

/-! ### One task -/

/-- `json.dumps(row, ensure_ascii=False) + "\n"`. -/
def jsonLine (py : Interp) (row : Row) : PyStr := py.dumps row.toVal ++ [ch '\n']

def jsonLines (py : Interp) (rows : List Row) : PyStr := rows.flatMap (jsonLine py)

/-- A row of `attempts`. -/
def attempt (row : Row) : PyVal :=
  .dict
    [("sample_idx", .int row.sample_idx), ("temperature", .float row.temperature),
      ("success", .bool row.success), ("reward", .float row.reward),
      ("num_turns", .int row.num_turns), ("num_tool_calls", .int row.num_tool_calls),
      ("error", optional .str row.error),
      ("was_contaminated", .bool row.was_contaminated_from_turn.isSome)]

def Row.isContaminated (row : Row) : Bool := row.was_contaminated_from_turn.isSome

/-- `successes` -/
def successes (rows : List Row) : List Row :=
  rows.filter fun row => !row.isContaminated && row.success

/-- `contaminated` -/
def contaminated (rows : List Row) : List Row := rows.filter Row.isContaminated

/-- `meta` -/
def metaOf (args : Args) (taskId : ℤ) (rows : List Row) : PyVal :=
  .dict
    [("task_id", .int taskId), ("mode", .str "teacher_rollout"), ("best_of_n", .int args.best_of_n),
      ("num_successes", .int (successes rows).length),
      ("num_contaminated", .int (contaminated rows).length),
      ("any_success", .bool !(successes rows).isEmpty), ("attempts", .list (rows.map attempt))]

/-- The samples of a task, in their order. -/
def sampleRollouts (py : Interp) (args : Args) (world : ℤ → ℕ → Behaviour)
    (temperatures : List PyFloat) (taskId : ℤ) : Except PyErr (List Rollout) :=
  temperatures.zipIdx.mapM fun (temperature, sampleIdx) =>
    runTeacherRollout py args (world taskId sampleIdx) taskId sampleIdx temperature

/-- The writing of the meta file. `json.dump` writes a document in pieces. -/
def metaOps (py : Interp) (args : Args) (taskId : ℤ) (rows : List Row) : List Op :=
  .create .metaFile :: ((py.dumpPieces (metaOf args taskId rows)).map fun piece =>
    .write .metaFile piece) ++ [.write .metaFile [ch '\n']]

/-- The files that are written for a task, operation by operation. -/
def writeOps (py : Interp) (args : Args) (taskId : ℤ) (rows : List Row) : List Op :=
  .create .outFile :: ((successes rows).map fun row => .write .outFile (jsonLine py row)) ++
    .create .contaminatedFile ::
      ((contaminated rows).map fun row => .write .contaminatedFile (jsonLine py row)) ++
    metaOps py args taskId rows

/-- Where a worker is. -/
inductive Phase where
  | start
  | writing (ops : List Op) (result : PyVal)
  | done (result : PyVal)
  | failed (e : PyErr)

/-- What a worker has returned. -/
def Phase.result? : Phase → Option PyVal
  | .done result => some result
  | _ => none

/-- The start of `collect_one_task`: the result of an earlier run, or the samples. -/
def beginTask (py : Interp) (args : Args) (world : ℤ → ℕ → Behaviour) (temperatures : List PyFloat)
    (taskId : ℤ) (metaFile : Option PyStr) : Phase :=
  match metaFile.filter fun _ => !args.overwrite with
  | some text =>
    match loads py.recursionLimit text with
    | .ok result => .done result
    | .error e => .failed e
  | none =>
    match sampleRollouts py args world temperatures taskId with
    | .ok rollouts =>
      let rows := rollouts.map Rollout.row
      .writing (writeOps py args taskId rows) (metaOf args taskId rows)
    | .error e => .failed e

/-- One step of `collect_one_task`. -/
def collectOneTask (py : Interp) (args : Args) (world : ℤ → ℕ → Behaviour)
    (temperatures : List PyFloat) (taskId : ℤ) (phase : Phase) (files : Files) : Phase × Files :=
  match phase with
  | .start =>
    (beginTask py args world temperatures taskId (taskFiles taskId files .metaFile), files)
  | .writing (op :: ops) result =>
    if op.allowed then
      (.writing ops result,
        Function.update files (fileName taskId op.kind)
          (some (op.content (taskFiles taskId files op.kind))))
    else (.failed ⟨.unicodeEncodeError, "surrogates not allowed"⟩, files)
  | .writing [] result => (.done result, files)
  | .done result => (.done result, files)
  | .failed e => (.failed e, files)

/-! ### The split -/

/-- `task_ids[int(i * stride)]`. -/
def strideItem (taskIds : List ℤ) (stride : PyFloat) (i : ℕ) : Except PyErr ℤ :=
  match stride with
  | .fin q => do
    let index ← pyInt (.float (.ofRat (i * q)))
    item taskIds index.toNat
  | _ => throw .overflowError "cannot convert float infinity to integer"

/-- The loop that fills `holdout`. The candidates are counted from the end. -/
def fillHoldout (size : ℕ) (holdout : List ℤ) : List ℤ → Except PyErr (List ℤ)
  | [] =>
    if holdout.length < size then throw .indexError "list index out of range" else .ok holdout
  | cand :: rest =>
    if holdout.length < size then
      fillHoldout size (if holdout.contains cand then holdout else holdout ++ [cand]) rest
    else .ok holdout

/-- `sorted(xs)` -/
def sorted (xs : List ℤ) : List ℤ := xs.insertionSort (· ≤ ·)

/-- `build_split` -/
def buildSplit (taskIds : List ℤ) (holdoutSize : ℤ) : Except PyErr (List ℤ × List ℤ) :=
  if holdoutSize ≤ 0 ∨ (taskIds.length : ℤ) ≤ holdoutSize then .ok (taskIds, [])
  else do
    let size := holdoutSize.toNat
    let stride := PyFloat.ofRat ((taskIds.length : ℚ) / size)
    let picked ← (List.range size).mapM (strideItem taskIds stride)
    let filled ← fillHoldout size (sorted picked.dedup) taskIds.reverse
    let holdout := sorted (filled.take size)
    .ok (taskIds.filter fun taskId => !holdout.contains taskId, holdout)

/-! ### The merge -/

/-- The open files of `merge_success_files` and its counters. -/
structure Merge where
  train : PyStr := []
  eval : PyStr := []
  holdout_train : PyStr := []
  n_train : ℕ := 0
  n_holdout : ℕ := 0

def Merge.addLine (seen : Bool) (m : Merge) (line : PyStr) : Merge :=
  if seen then { m with train := m.train ++ line, n_train := m.n_train + 1 }
  else
    { m with
      holdout_train := m.holdout_train ++ line, eval := m.eval ++ line
      n_holdout := m.n_holdout + 1 }

def Merge.addTask (files : Files) (seen : List ℤ) (m : Merge) (taskId : ℤ) : Merge :=
  match taskFiles taskId files .outFile with
  | none => m
  | some content => (readLines content).foldl (Merge.addLine (seen.contains taskId)) m

/-- The directory once the three files are written. -/
def Merge.save (m : Merge) (files : Files) : Files :=
  Function.update (Function.update (Function.update files "train.jsonl" (some m.train))
    "eval.jsonl" (some m.eval)) "holdout_train.jsonl" (some m.holdout_train)

/-- `merge_success_files` -/
def mergeSuccessFiles (files : Files) (taskIds seen : List ℤ) : Merge :=
  taskIds.foldl (Merge.addTask files seen) {}

/-! ### A run -/

/-- What a completed run leaves. -/
structure Output where
  files : Files
  metas : List PyVal
  seen : List ℤ
  holdout : List ℤ
  n_train : ℕ
  n_holdout : ℕ

/-- The task ids of a run. A worker is known by its task. -/
structure TaskIds where
  ids : List ℤ
  nodup : ids.Nodup

/-- A run from an empty directory, up to the merge, for a schedule of the workers. There is no
result when a worker has not returned, or something has raised. -/
def collect (py : Interp) (args : Args) (world : ℤ → ℕ → Behaviour) (temperatures : List PyFloat)
    (taskIds : TaskIds) (holdoutSize : ℤ) (schedule : List ℤ) : Option Output := do
  let (workers, files) := Interleaving.run (collectOneTask py args world temperatures)
    (fun _ => .start, fun _ => none) schedule
  let metas ← taskIds.ids.mapM fun taskId => (workers taskId).result?
  let (seen, holdout) ← (buildSplit taskIds.ids holdoutSize).toOption
  let m := mergeSuccessFiles files taskIds.ids seen
  some ⟨m.save files, metas, seen, holdout, m.n_train, m.n_holdout⟩

/-! ### No two workers write to the same file -/

/-- The characters of a padded number. -/
def inNumber (c : ℕ) : Bool := c = ch '-' || isDigit c

theorem takeWhile_fileName (taskId : ℤ) (kind : FileKind) :
    ((fileName taskId kind).drop 5).takeWhile inNumber = format04d taskId := by
  have hnumber : ∀ c ∈ format04d taskId, inNumber c = true := fun c hc => by
    rw [inNumber, Bool.or_eq_true, decide_eq_true_eq]
    exact of_mem_format04d hc
  show (format04d taskId ++ kind.suffix).takeWhile inNumber = format04d taskId
  rw [List.takeWhile_append_of_pos hnumber]
  cases kind <;> exact List.append_nil _

theorem fileName_injective {taskId taskId' : ℤ} {kind kind' : FileKind}
    (h : fileName taskId kind = fileName taskId' kind') : taskId = taskId' ∧ kind = kind' := by
  have hid : taskId = taskId' := format04d_injective <| by
    rw [← takeWhile_fileName taskId kind, h, takeWhile_fileName]
  subst hid
  refine ⟨rfl, ?_⟩
  have hsuffix : kind.suffix = kind'.suffix := List.append_cancel_left h
  cases kind <;> cases kind' <;> first | rfl | exact absurd hsuffix (by decide)

section Worker

variable {py : Interp} {args : Args} {world : ℤ → ℕ → Behaviour} {temperatures : List PyFloat}

/-- The worker of a task owns the files of that task. -/
def Owns (taskId : ℤ) (path : PyStr) : Prop := ∃ kind, path = fileName taskId kind

/-- **Isolation of the workers.** -/
theorem collectOneTask_isolated :
    Interleaving.Isolated (collectOneTask py args world temperatures) Owns where
  disjoint := by
    rintro i j path ⟨kind, rfl⟩ ⟨kind', h⟩
    exact (fileName_injective h).1
  frame := by
    intro taskId phase files path hpath
    rcases phase with - | ⟨ops, result⟩ | - | -
    · rfl
    · rcases ops with - | ⟨op, ops⟩
      · rfl
      · rw [collectOneTask]
        split
        · exact Function.update_of_ne (fun h => hpath ⟨op.kind, h⟩) _ _
        · rfl
    · rfl
    · rfl

/-! ### What a worker writes -/

/-- An operation, on the files of the task alone. -/
def Op.run (view : FileKind → Option PyStr) (op : Op) : FileKind → Option PyStr :=
  Function.update view op.kind (some (op.content (view op.kind)))

theorem taskFiles_update (taskId : ℤ) (files : Files) (kind : FileKind) (content : Option PyStr) :
    taskFiles taskId (Function.update files (fileName taskId kind) content) =
      Function.update (taskFiles taskId files) kind content := by
  funext kind'
  rw [taskFiles]
  by_cases h : kind' = kind
  · rw [h, Function.update_self, Function.update_self]
  · rw [Function.update_of_ne h, Function.update_of_ne fun hname => h (fileName_injective hname).2]
    rfl

theorem foldl_run_of_ne {ops : List Op} {kind : FileKind} :
    ∀ {view : FileKind → Option PyStr}, (∀ op ∈ ops, op.kind ≠ kind) →
      (ops.foldl Op.run view) kind = view kind := by
  induction ops with
  | nil => exact fun _ => rfl
  | cons op ops ih =>
    intro view hops
    obtain ⟨hop, hrest⟩ := List.forall_mem_cons.mp hops
    rw [List.foldl_cons, ih hrest, Op.run, Function.update_of_ne hop.symm]

theorem foldl_run_write {α : Type} (kind : FileKind) (f : α → PyStr) (rows : List α) :
    ∀ {view : FileKind → Option PyStr} {content : PyStr}, view kind = some content →
      ((rows.map fun row => Op.write kind (f row)).foldl Op.run view) kind =
        some (content ++ rows.flatMap f) := by
  induction rows with
  | nil =>
    intro view content hview
    rw [List.flatMap_nil, List.append_nil]
    exact hview
  | cons row rows ih =>
    intro view content hview
    have hwritten : Op.run view (.write kind (f row)) kind = some (content ++ f row) := by
      show Function.update view kind (some ((view kind).getD [] ++ f row)) kind = _
      rw [hview, Function.update_self, Option.getD_some]
    rw [List.map_cons, List.foldl_cons, ih hwritten, List.flatMap_cons, List.append_assoc]

theorem kind_of_mem_metaOps {taskId : ℤ} {rows : List Row} {op : Op}
    (h : op ∈ metaOps py args taskId rows) : op.kind = .metaFile := by
  rcases List.mem_append.mp h with h | h
  · rcases List.mem_cons.mp h with rfl | h
    · rfl
    · obtain ⟨piece, -, rfl⟩ := List.mem_map.mp h
      rfl
  · rw [List.mem_singleton.mp h]
    rfl

/-- The operations of a task leave the successful rows in its first file. -/
theorem foldl_writeOps (taskId : ℤ) (rows : List Row) (view : FileKind → Option PyStr) :
    ((writeOps py args taskId rows).foldl Op.run view) .outFile =
      some (jsonLines py (successes rows)) := by
  have hcreated : Op.run view (.create .outFile) .outFile = some [] := Function.update_self _ _ _
  rw [writeOps, List.append_assoc, List.cons_append, List.foldl_cons, List.foldl_append,
    foldl_run_of_ne, foldl_run_write .outFile (jsonLine py) (successes rows) hcreated]
  · rfl
  · intro op hop
    rcases List.mem_append.mp hop with hop | hop
    · rcases List.mem_cons.mp hop with rfl | hop
      · decide
      · obtain ⟨row, -, rfl⟩ := List.mem_map.mp hop
        exact FileKind.noConfusion
    · rw [kind_of_mem_metaOps hop]
      decide

/-- What holds of a worker and the files of its task. -/
def Phase.Inv (py : Interp) (args : Args) (world : ℤ → ℕ → Behaviour) (temperatures : List PyFloat)
    (taskId : ℤ) (view : FileKind → Option PyStr) : Phase → Prop
  | .start => view .metaFile = none
  | .writing ops result =>
    ∃ rollouts, sampleRollouts py args world temperatures taskId = .ok rollouts ∧
      result = metaOf args taskId (rollouts.map Rollout.row) ∧
      (ops.foldl Op.run view) .outFile = some (jsonLines py (successes (rollouts.map Rollout.row)))
  | .done result =>
    ∃ rollouts, sampleRollouts py args world temperatures taskId = .ok rollouts ∧
      result = metaOf args taskId (rollouts.map Rollout.row) ∧
      view .outFile = some (jsonLines py (successes (rollouts.map Rollout.row)))
  | .failed _ => True

/-- A step of a worker keeps its invariant. -/
theorem collectOneTask_inv (taskId : ℤ) (phase : Phase) (files : Files)
    (h : phase.Inv py args world temperatures taskId (taskFiles taskId files)) :
    (collectOneTask py args world temperatures taskId phase files).1.Inv py args world temperatures
      taskId (taskFiles taskId (collectOneTask py args world temperatures taskId phase files).2) := by
  rcases phase with - | ⟨ops, result⟩ | result | e
  · -- no meta file, so the trajectories are sampled
    have hnone : taskFiles taskId files .metaFile = none := h
    rw [collectOneTask, hnone, beginTask, Option.filter_none]
    rcases hrollouts : sampleRollouts py args world temperatures taskId with e | rollouts
    · trivial
    · exact ⟨rollouts, hrollouts, rfl, foldl_writeOps taskId _ _⟩
  · obtain ⟨rollouts, hrollouts, hresult, hview⟩ := h
    rcases ops with - | ⟨op, ops⟩
    · exact ⟨rollouts, hrollouts, hresult, hview⟩
    · rw [collectOneTask]
      split
      · refine ⟨rollouts, hrollouts, hresult, ?_⟩
        rw [taskFiles_update]
        exact hview
      · trivial
  · exact h
  · trivial

/-- **A worker that has returned** has sampled its task, and its file holds the successful rows. -/
theorem run_done {schedule : List ℤ} {taskId : ℤ} {result : PyVal} {workers : ℤ → Phase}
    {files : Files}
    (hrun : Interleaving.run (collectOneTask py args world temperatures)
      (fun _ => .start, fun _ => none) schedule = (workers, files))
    (hresult : (workers taskId).result? = some result) :
    ∃ rollouts, sampleRollouts py args world temperatures taskId = .ok rollouts ∧
      result = metaOf args taskId (rollouts.map Rollout.row) ∧
      taskFiles taskId files .outFile =
        some (jsonLines py (successes (rollouts.map Rollout.row))) := by
  have hisolated : Interleaving.Isolated (collectOneTask py args world temperatures) Owns :=
    collectOneTask_isolated
  have hinv := hisolated.run_invariant
    (fun taskId phase files =>
      phase.Inv py args world temperatures taskId (taskFiles taskId files))
    (fun taskId phase files files' hsame h => by
      have hview : taskFiles taskId files = taskFiles taskId files' :=
        funext fun kind => hsame _ ⟨kind, rfl⟩
      rwa [← hview])
    collectOneTask_inv schedule (fun _ => .start, fun _ => none) (fun _ => rfl) taskId
  rw [hrun] at hinv
  dsimp only at hinv
  rcases hphase : workers taskId with - | ⟨ops, pending⟩ | result' | e
  · rw [hphase] at hresult
    cases hresult
  · rw [hphase] at hresult
    cases hresult
  · rw [hphase] at hresult hinv
    obtain rfl : result' = result := Option.some.inj hresult
    exact hinv
  · rw [hphase] at hresult
    cases hresult

end Worker

/-! ### The split -/

theorem mem_fillHoldout {size : ℕ} {taskIds cands : List ℤ} :
    ∀ {holdout filled : List ℤ}, fillHoldout size holdout cands = .ok filled →
      (∀ taskId ∈ holdout, taskId ∈ taskIds) → (∀ taskId ∈ cands, taskId ∈ taskIds) →
      ∀ taskId ∈ filled, taskId ∈ taskIds := by
  induction cands with
  | nil =>
    intro holdout filled h hholdout _
    rw [fillHoldout] at h
    split at h
    · cases h
    · rwa [← Except.ok.inj h]
  | cons cand cands ih =>
    intro holdout filled h hholdout hcands
    obtain ⟨hcand, hrest⟩ := List.forall_mem_cons.mp hcands
    rw [fillHoldout] at h
    split at h
    · refine ih h ?_ hrest
      split
      · exact hholdout
      · exact List.forall_mem_append.mpr ⟨hholdout, List.forall_mem_singleton.mpr hcand⟩
    · rwa [← Except.ok.inj h]

theorem mem_strideItem {taskIds : List ℤ} {stride : PyFloat} {i : ℕ} {taskId : ℤ}
    (h : strideItem taskIds stride i = .ok taskId) : taskId ∈ taskIds := by
  rcases stride with q | neg | -
  · obtain ⟨index, -, h⟩ := bind_eq_ok.mp h
    exact List.mem_of_getElem? (item_eq_ok.mp h)
  · cases h
  · cases h

theorem mem_sorted {xs : List ℤ} {x : ℤ} : x ∈ sorted xs ↔ x ∈ xs :=
  (List.perm_insertionSort _ xs).mem_iff

/-- **The split**: the seen tasks are those that are not held out, in their order. -/
theorem buildSplit_eq {taskIds seen holdout : List ℤ} {holdoutSize : ℤ}
    (h : buildSplit taskIds holdoutSize = .ok (seen, holdout)) :
    seen = taskIds.filter (fun taskId => taskId ∉ holdout) ∧
      ∀ taskId ∈ holdout, taskId ∈ taskIds := by
  rw [buildSplit] at h
  split at h
  · rw [Except.ok.injEq, Prod.mk.injEq] at h
    obtain ⟨rfl, rfl⟩ := h
    constructor
    · rw [List.filter_eq_self.mpr]
      simp
    · intro taskId htask
      cases htask
  · obtain ⟨picked, hpicked, h⟩ := bind_eq_ok.mp h
    obtain ⟨filled, hfilled, h⟩ := bind_eq_ok.mp h
    rw [Except.ok.injEq, Prod.mk.injEq] at h
    obtain ⟨rfl, rfl⟩ := h
    constructor
    · refine List.filter_congr fun taskId _ => ?_
      simp
    · intro taskId htask
      refine mem_fillHoldout hfilled ?_ (fun taskId hcand => List.mem_reverse.mp hcand) taskId
        (List.mem_of_mem_take (mem_sorted.mp htask))
      intro taskId hsorted
      obtain ⟨i, -, hi⟩ := exists_mem_of_mapM hpicked taskId
        (List.mem_dedup.mp (mem_sorted.mp hsorted))
      exact mem_strideItem hi

/-! ### The merge -/

theorem foldl_addLine_seen (lines : List PyStr) :
    ∀ m : Merge, lines.foldl (Merge.addLine true) m =
      { m with train := m.train ++ lines.flatten, n_train := m.n_train + lines.length } := by
  induction lines with
  | nil =>
    intro m
    simp
  | cons line lines ih =>
    intro m
    rw [List.foldl_cons, ih]
    simp [Merge.addLine, Nat.add_assoc, Nat.add_comm 1]

theorem foldl_addLine_holdout (lines : List PyStr) :
    ∀ m : Merge, lines.foldl (Merge.addLine false) m =
      { m with
        eval := m.eval ++ lines.flatten, holdout_train := m.holdout_train ++ lines.flatten
        n_holdout := m.n_holdout + lines.length } := by
  induction lines with
  | nil =>
    intro m
    simp
  | cons line lines ih =>
    intro m
    rw [List.foldl_cons, ih]
    simp [Merge.addLine, Nat.add_assoc, Nat.add_comm 1]

section Merged

variable {py : Interp} {files : Files} {seen : List ℤ} {rows : ℤ → List Row}

theorem readLines_jsonLines (rows : List Row) :
    readLines (jsonLines py rows) = rows.map (jsonLine py) :=
  readLines_flatMap (fun row : Row => py.dumps row.toVal) rows fun _ _ => py.dumps_printable _

/-- What a file of rows of a seen task adds to the merged ones. -/
theorem addTask_of_mem {taskId : ℤ} (hseen : taskId ∈ seen)
    (h : taskFiles taskId files .outFile = some (jsonLines py (rows taskId))) (m : Merge) :
    Merge.addTask files seen m taskId =
      { m with
        train := m.train ++ jsonLines py (rows taskId)
        n_train := m.n_train + (rows taskId).length } := by
  rw [Merge.addTask, h]
  show (readLines (jsonLines py (rows taskId))).foldl (Merge.addLine (seen.contains taskId)) m = _
  rw [readLines_jsonLines, List.contains_iff_mem.mpr hseen, foldl_addLine_seen, List.length_map,
    ← List.flatMap_def, jsonLines]

theorem addTask_of_not_mem {taskId : ℤ} (hseen : taskId ∉ seen)
    (h : taskFiles taskId files .outFile = some (jsonLines py (rows taskId))) (m : Merge) :
    Merge.addTask files seen m taskId =
      { m with
        eval := m.eval ++ jsonLines py (rows taskId)
        holdout_train := m.holdout_train ++ jsonLines py (rows taskId)
        n_holdout := m.n_holdout + (rows taskId).length } := by
  have hnot : seen.contains taskId = false := by simpa using hseen
  rw [Merge.addTask, h]
  show (readLines (jsonLines py (rows taskId))).foldl (Merge.addLine (seen.contains taskId)) m = _
  rw [readLines_jsonLines, hnot, foldl_addLine_holdout, List.length_map, ← List.flatMap_def,
    jsonLines]

theorem jsonLines_append (rows rows' : List Row) :
    jsonLines py (rows ++ rows') = jsonLines py rows ++ jsonLines py rows' :=
  List.flatMap_append

/-- The three files, and the sum of the counters. -/
theorem foldl_addTask (taskIds : List ℤ) :
    ∀ m : Merge,
      (∀ taskId ∈ taskIds,
        taskFiles taskId files .outFile = some (jsonLines py (rows taskId))) →
      (taskIds.foldl (Merge.addTask files seen) m).train =
          m.train ++ jsonLines py ((taskIds.filter (· ∈ seen)).flatMap rows) ∧
        (taskIds.foldl (Merge.addTask files seen) m).eval =
          m.eval ++ jsonLines py ((taskIds.filter (· ∉ seen)).flatMap rows) ∧
        (taskIds.foldl (Merge.addTask files seen) m).holdout_train =
          m.holdout_train ++ jsonLines py ((taskIds.filter (· ∉ seen)).flatMap rows) ∧
        (taskIds.foldl (Merge.addTask files seen) m).n_train +
            (taskIds.foldl (Merge.addTask files seen) m).n_holdout =
          m.n_train + m.n_holdout + (taskIds.map fun taskId => (rows taskId).length).sum := by
  induction taskIds with
  | nil =>
    intro m _
    simp [jsonLines]
  | cons taskId taskIds ih =>
    intro m hfiles
    obtain ⟨hfile, hrest⟩ := List.forall_mem_cons.mp hfiles
    by_cases hseen : taskId ∈ seen
    · obtain ⟨htrain, heval, hholdout, hcount⟩ := ih (Merge.addTask files seen m taskId) hrest
      rw [List.foldl_cons, htrain, heval, hholdout, hcount, addTask_of_mem hseen hfile,
        List.filter_cons_of_pos (by simpa using hseen),
        List.filter_cons_of_neg (by simpa using hseen), List.flatMap_cons, jsonLines_append,
        List.append_assoc, List.map_cons, List.sum_cons]
      refine ⟨rfl, rfl, rfl, ?_⟩
      dsimp only
      omega
    · obtain ⟨htrain, heval, hholdout, hcount⟩ := ih (Merge.addTask files seen m taskId) hrest
      rw [List.foldl_cons, htrain, heval, hholdout, hcount, addTask_of_not_mem hseen hfile,
        List.filter_cons_of_neg (by simpa using hseen),
        List.filter_cons_of_pos (by simpa using hseen), List.flatMap_cons, jsonLines_append,
        List.map_cons, List.sum_cons]
      refine ⟨rfl, List.append_assoc _ _ _, List.append_assoc _ _ _, ?_⟩
      dsimp only
      omega

end Merged

/-! ### What a run leaves -/

/-- A trajectory to train on: it reached the reward, and every turn was generated from the whole
history. -/
def Rollout.Clean (rollout : Rollout) : Prop :=
  atLeastOne rollout.row.reward = true ∧ ∀ t ∈ rollout.turns, t.request = t.history

instance (rollout : Rollout) : Decidable rollout.Clean :=
  inferInstanceAs (Decidable (_ ∧ ∀ t ∈ rollout.turns, t.request = t.history))

/-- `meta["num_successes"]` -/
def numSuccesses (result : PyVal) : Except PyErr PyVal := getKey result "num_successes"

section Run

variable {py : Interp} {args : Args} {world : ℤ → ℕ → Behaviour} {temperatures : List PyFloat}

theorem exists_of_sampleRollouts {taskId : ℤ} {rollouts : List Rollout}
    (h : sampleRollouts py args world temperatures taskId = .ok rollouts) :
    ∀ rollout ∈ rollouts, ∃ sampleIdx temperature,
      runTeacherRollout py args (world taskId sampleIdx) taskId sampleIdx temperature =
        .ok rollout := by
  intro rollout hrollout
  obtain ⟨⟨temperature, sampleIdx⟩, -, hrun⟩ := exists_mem_of_mapM h rollout hrollout
  exact ⟨sampleIdx, temperature, hrun⟩

/-- What is kept as a success is what is clean. -/
theorem successes_map_row {taskId : ℤ} {rollouts : List Rollout}
    (h : sampleRollouts py args world temperatures taskId = .ok rollouts) :
    successes (rollouts.map Rollout.row) =
      (rollouts.filter fun rollout => rollout.Clean).map Rollout.row := by
  rw [successes, List.filter_map]
  refine congrArg (List.map Rollout.row) (List.filter_congr fun rollout hrollout => ?_)
  obtain ⟨sampleIdx, temperature, hrun⟩ := exists_of_sampleRollouts h rollout hrollout
  have hnote := runTeacherRollout_contaminated hrun
  have hsuccess := (runTeacherRollout_row hrun).2
  rw [Function.comp_apply, Row.isContaminated, hsuccess, Bool.eq_iff_iff, decide_eq_true_eq,
    Rollout.Clean, ← hnote, Bool.and_eq_true, Bool.not_eq_true', Option.isSome_eq_false_iff,
    Option.isNone_iff_eq_none]
  exact and_comm

/-- A traversal of options that has a result has it everywhere. -/
theorem map_some_of_mapM {α β : Type} {f : α → Option β} {xs : List α} :
    ∀ {ys : List β}, xs.mapM f = some ys → ys.map some = xs.map f := by
  induction xs with
  | nil =>
    intro ys h
    rw [← Option.some.inj h]
    rfl
  | cons x xs ih =>
    intro ys h
    rw [List.mapM_cons] at h
    obtain ⟨y, hy, h⟩ := Option.bind_eq_some_iff.mp h
    obtain ⟨ys', hys', h⟩ := Option.bind_eq_some_iff.mp h
    rw [← Option.some.inj h, List.map_cons, List.map_cons, hy, ih hys']

section Results

variable {α β γ : Type} {f : α → Option β} {xs : List α} {ys : List β}

theorem exists_result (h : ys.map some = xs.map f) : ∀ x ∈ xs, ∃ y, f x = some y := by
  intro x hx
  have hmem : f x ∈ xs.map f := List.mem_map_of_mem hx
  rw [← h] at hmem
  obtain ⟨y, -, hy⟩ := List.mem_map.mp hmem
  exact ⟨y, hy.symm⟩

theorem map_results (h : ys.map some = xs.map f) {g : β → γ} {n : α → γ}
    (hn : ∀ x ∈ xs, ∀ y, f x = some y → g y = n x) : ys.map g = xs.map n := by
  have hsome : (ys.map g).map some = (xs.map n).map some := by
    calc (ys.map g).map some
        = (ys.map some).map (Option.map g) := by rw [List.map_map, List.map_map]; rfl
      _ = (xs.map f).map (Option.map g) := by rw [h]
      _ = (xs.map n).map some := by
        rw [List.map_map, List.map_map]
        refine List.map_congr_left fun x hx => ?_
        obtain ⟨y, hy⟩ := exists_result h x hx
        rw [Function.comp_apply, Function.comp_apply, hy, Option.map_some, hn x hx y hy]
  exact List.map_injective_iff.mpr (Option.some_injective _) hsome

end Results

theorem numSuccesses_metaOf (taskId : ℤ) (rows : List Row) :
    numSuccesses (metaOf args taskId rows) = .ok (.int (successes rows).length) := rfl

theorem Merge.save_files (m : Merge) (files : Files) :
    m.save files "train.jsonl" = some m.train ∧ m.save files "eval.jsonl" = some m.eval ∧
      m.save files "holdout_train.jsonl" = some m.holdout_train := by
  refine ⟨?_, ?_, Function.update_self _ _ _⟩
  · rw [Merge.save, Function.update_of_ne (by decide), Function.update_of_ne (by decide),
      Function.update_self]
  · rw [Merge.save, Function.update_of_ne (by decide), Function.update_self]

/-- The trajectories of a task that has been sampled. -/
def rolloutsOf (py : Interp) (args : Args) (world : ℤ → ℕ → Behaviour) (temperatures : List PyFloat)
    (taskId : ℤ) : List Rollout :=
  (sampleRollouts py args world temperatures taskId).toOption.getD []

/-- The clean ones, as they are written. -/
def cleanRows (rollouts : List Rollout) : List Row :=
  (rollouts.filter fun rollout => rollout.Clean).map Rollout.row

theorem cleanRows_task_id {taskId : ℤ} {rollouts : List Rollout}
    (h : sampleRollouts py args world temperatures taskId = .ok rollouts) :
    ∀ row ∈ cleanRows rollouts, row.task_id = taskId := by
  intro row hrow
  obtain ⟨rollout, hrollout, rfl⟩ := List.mem_map.mp hrow
  obtain ⟨sampleIdx, temperature, hrun⟩ :=
    exists_of_sampleRollouts h rollout (List.mem_of_mem_filter hrollout)
  exact (runTeacherRollout_row hrun).1

/-- The merge tells the tasks apart by the seen ones. -/
theorem filter_seen {taskIds seen holdout : List ℤ}
    (hseen : seen = taskIds.filter (fun taskId => taskId ∉ holdout)) :
    taskIds.filter (· ∈ seen) = seen ∧
      taskIds.filter (· ∉ seen) = taskIds.filter (· ∈ holdout) := by
  constructor
  · conv_rhs => rw [hseen]
    refine List.filter_congr fun taskId htask => ?_
    simp [hseen, htask]
  · refine List.filter_congr fun taskId htask => ?_
    simp [hseen, htask]

/-- A worker that has returned, in terms of what it sampled. -/
theorem run_done_clean {schedule : List ℤ} {taskId : ℤ} {result : PyVal} {workers : ℤ → Phase}
    {files : Files}
    (hrun : Interleaving.run (collectOneTask py args world temperatures)
      (fun _ => .start, fun _ => none) schedule = (workers, files))
    (hresult : (workers taskId).result? = some result) :
    sampleRollouts py args world temperatures taskId =
        .ok (rolloutsOf py args world temperatures taskId) ∧
      numSuccesses result =
        .ok (.int (cleanRows (rolloutsOf py args world temperatures taskId)).length) ∧
      taskFiles taskId files .outFile =
        some (jsonLines py (cleanRows (rolloutsOf py args world temperatures taskId))) := by
  obtain ⟨rollouts, hrollouts, rfl, hfile⟩ := run_done hrun hresult
  have hof : rolloutsOf py args world temperatures taskId = rollouts := by
    rw [rolloutsOf, hrollouts]
    rfl
  rw [successes_map_row hrollouts] at hfile
  rw [hof, numSuccesses_metaOf, successes_map_row hrollouts]
  exact ⟨hrollouts, rfl, hfile⟩

/-- **Purity of the training set.** Whatever the teacher, the user and the environment answer and
however the workers take turns, a completed run has sampled every task, `train.jsonl` holds the
clean trajectories of the seen tasks in task and sample order, none of a task that is held out, and
`eval.jsonl` and `holdout_train.jsonl` hold those of the tasks that are held out. -/
theorem collect_pure {taskIds : TaskIds} {holdoutSize : ℤ} {schedule : List ℤ} {out : Output}
    (h : collect py args world temperatures taskIds holdoutSize schedule = some out) :
    ∃ rollouts : ℤ → List Rollout,
      (∀ taskId ∈ taskIds.ids,
        sampleRollouts py args world temperatures taskId = .ok (rollouts taskId)) ∧
      out.seen = taskIds.ids.filter (fun taskId => taskId ∉ out.holdout) ∧
      (∀ taskId ∈ out.holdout, taskId ∈ taskIds.ids) ∧
      out.files "train.jsonl" = some (jsonLines py
        (out.seen.flatMap fun taskId => cleanRows (rollouts taskId))) ∧
      (∀ taskId ∈ out.seen, ∀ row ∈ cleanRows (rollouts taskId), row.task_id ∉ out.holdout) ∧
      out.files "eval.jsonl" = some (jsonLines py
        ((taskIds.ids.filter (fun taskId => taskId ∈ out.holdout)).flatMap fun taskId =>
          cleanRows (rollouts taskId))) ∧
      out.files "holdout_train.jsonl" = out.files "eval.jsonl" ∧
      ∃ counts : List ℕ, out.metas.map numSuccesses = counts.map (fun n => .ok (.int n)) ∧
        out.n_train + out.n_holdout = counts.sum := by
  rw [collect] at h
  rcases hrun : Interleaving.run (collectOneTask py args world temperatures)
    (fun _ => .start, fun _ => none) schedule with ⟨workers, files⟩
  rw [hrun] at h
  obtain ⟨metas, hmetas, h⟩ := Option.bind_eq_some_iff.mp h
  obtain ⟨⟨seen, holdout⟩, hsplit, h⟩ := Option.bind_eq_some_iff.mp h
  obtain rfl := Option.some.inj h
  replace hmetas := map_some_of_mapM hmetas
  have hsampled : ∀ taskId ∈ taskIds.ids, sampleRollouts py args world temperatures taskId =
      .ok (rolloutsOf py args world temperatures taskId) := by
    intro taskId htask
    obtain ⟨result, hresult⟩ := exists_result hmetas taskId htask
    exact (run_done_clean hrun hresult).1
  have hok : buildSplit taskIds.ids holdoutSize = .ok (seen, holdout) := by
    rcases hsplit' : buildSplit taskIds.ids holdoutSize with e | split
    · rw [hsplit'] at hsplit
      cases hsplit
    · rw [hsplit'] at hsplit
      rw [Option.some.inj hsplit]
  obtain ⟨hseen, hholdout⟩ := buildSplit_eq hok
  have hmerge : ∀ taskId ∈ taskIds.ids, taskFiles taskId files .outFile =
      some (jsonLines py (cleanRows (rolloutsOf py args world temperatures taskId))) := by
    intro taskId htask
    obtain ⟨result, hresult⟩ := exists_result hmetas taskId htask
    exact (run_done_clean hrun hresult).2.2
  obtain ⟨hfilterSeen, hfilterRest⟩ := filter_seen hseen
  obtain ⟨htrain, heval, hhold, hcount⟩ := foldl_addTask taskIds.ids {} hmerge
  rw [hfilterSeen] at htrain
  rw [hfilterRest] at heval hhold
  obtain ⟨hfileTrain, hfileEval, hfileHold⟩ :=
    (mergeSuccessFiles files taskIds.ids seen).save_files files
  refine ⟨rolloutsOf py args world temperatures, hsampled, hseen,
    hholdout, hfileTrain.trans (congrArg some htrain), ?_, hfileEval.trans (congrArg some heval),
    (hfileHold.trans (congrArg some hhold)).trans (hfileEval.trans (congrArg some heval)).symm,
    taskIds.ids.map fun taskId =>
      (cleanRows (rolloutsOf py args world temperatures taskId)).length, ?_, ?_⟩
  · intro taskId htask row hrow
    rw [hseen, List.mem_filter, decide_eq_true_eq] at htask
    rw [cleanRows_task_id (hsampled taskId htask.1) row hrow]
    exact htask.2
  · rw [List.map_map]
    exact map_results hmetas fun taskId _ result hresult => (run_done_clean hrun hresult).2.1
  · rw [mergeSuccessFiles, hcount]
    exact Nat.zero_add _

end Run

/-- A teacher that answers at once, and a user who is content. -/
def contentWorld (_taskId : ℤ) (_sampleIdx : ℕ) : Behaviour where
  start := .ok ("Help the user.", "Hi")
  teacher _ _ := .ok (.dict [("choices", .list [.dict [("message", .dict [("content", .str "Done.")])]])])
  step _ _ _ := .ok ⟨"###STOP###", .fin 1, true⟩

/-- Two tasks, one of them held out, by two workers that take turns. -/
def sampleRun : Option Output :=
  collect .silent {} contentWorld [.fin 0] ⟨[3, 5], by decide⟩ 1
    (List.replicate 80 [5, 3]).flatten

theorem collect_pure_sampleRun : ∃ (out : Output) (rollouts : ℤ → List Rollout),
    sampleRun = some out ∧ out.n_train = 1 ∧
    out.seen = [3, 5].filter (fun taskId => taskId ∉ out.holdout) ∧
    out.files "train.jsonl" = some (jsonLines .silent
      (out.seen.flatMap fun taskId => cleanRows (rollouts taskId))) ∧
    out.files "holdout_train.jsonl" = out.files "eval.jsonl" := by
  have hsome : sampleRun.map Output.n_train = some 1 := by decide +kernel
  obtain ⟨out, hout, htrain⟩ := Option.map_eq_some_iff.mp hsome
  obtain ⟨rollouts, -, hseen, -, hfile, -, -, hhold, -⟩ := collect_pure hout
  exact ⟨out, rollouts, hout, htrain, hseen, hfile, hhold⟩

end Collect

end ToolAgent
