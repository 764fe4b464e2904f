import Mathlib.Tactic.Choose
import ToolAgent.Python.CutShort
import ToolAgent.Sft.Collect

/-!
# Collecting with interruptions

The collection can be stopped at any point and started again on the same directory. A worker that
finds a meta file returns what is in it, and samples its task otherwise. A meta file is written
last, when the trajectories that it counts are complete, and it is read back as it was written.

So a run that completes leaves for each task what one of the runs has sampled, whole: nothing is
lost, mixed or there twice. What the earlier runs have left stops a later one in one case only: a
meta file that was cut short. It is written in pieces, and no beginning of a document is read as
another one.

## Main definitions

* `Start`, `collectFrom` — a run on a directory as it is
* `Directory` — the directories that runs leave, stopped or completed
* `CutShort` — a document that is not written to its end
* `Left` — what a task has in them
* `Start.Ready` — the task does not stop a later run

## Main results

* `CutShort.loads_error` — a meta file that is cut short is not read
* `collectOneTask_left` — the step of a worker
* `Directory.left` — what holds of every task in every directory
* `collect_resumed` — what a completed run leaves after others
* `collectFrom_completes_iff` — which runs complete
-/

namespace ToolAgent

namespace Collect

open Python

variable {py : Interp}

/-! ### Runs on a directory -/

/-- A start of the script: its arguments, the outside, and how the workers take turns. -/
structure Start where
  args : Args
  world : ℤ → ℕ → Behaviour
  temperatures : List PyFloat
  taskIds : TaskIds
  holdoutSize : ℤ
  schedule : List ℤ

/-- The workers and the directory, when the schedule is over. -/
def Start.workers (py : Interp) (st : Start) (files : Files) : (ℤ → Phase) × Files :=
  Interleaving.run (collectOneTask py st.args st.world st.temperatures)
    (fun _ => .start, files) st.schedule

/-- `collect`, from a directory that need not be empty. -/
def collectFrom (py : Interp) (st : Start) (files : Files) : Option Output := do
  let (workers, files) := st.workers py files
  let metas ← st.taskIds.ids.mapM fun taskId => (workers taskId).result?
  let (seen, holdout) ← (buildSplit st.taskIds.ids st.holdoutSize).toOption
  let m := mergeSuccessFiles files st.taskIds.ids seen
  some ⟨m.save files, metas, seen, holdout, m.n_train, m.n_holdout⟩

theorem collectFrom_empty (st : Start) : collectFrom py st (fun _ => none) =
    collect py st.args st.world st.temperatures st.taskIds st.holdoutSize st.schedule := rfl

/-- The directories that runs leave: each may have been stopped, or completed. -/
inductive Directory (py : Interp) : List Start → Files → Prop
  | empty : Directory py [] fun _ => none
  | stopped {starts : List Start} {files : Files} (st : Start) :
      Directory py starts files → Directory py (starts ++ [st]) (st.workers py files).2
  | completed {starts : List Start} {files : Files} (st : Start) {out : Output} :
      Directory py starts files → collectFrom py st files = some out →
        Directory py (starts ++ [st]) out.files

/-- What a start has sampled for a task. -/
def Start.Sampled (py : Interp) (st : Start) (taskId : ℤ) (rows : List Row) : Prop :=
  ∃ rollouts, sampleRollouts py st.args st.world st.temperatures taskId = .ok rollouts ∧
    rows = rollouts.map Rollout.row

/-! ### Meta files -/

/-- The decoder accepts the digits of the number. -/
def Short (n : ℤ) : Prop := (natRepr n.natAbs).length ≤ maxStrDigits

instance (n : ℤ) : Decidable (Short n) := inferInstanceAs (Decidable (_ ≤ _))

/-- The numbers of a row that a meta file has. -/
structure Row.Fits (py : Interp) (row : Row) : Prop where
  sample_idx : Short row.sample_idx
  num_turns : Short row.num_turns
  num_tool_calls : Short row.num_tool_calls
  floats : ∀ q, row.temperature = .fin q ∨ row.reward = .fin q → ReadsBack (py.floatRepr q) q

/-- The meta file of a task can be read. -/
structure Fits (py : Interp) (args : Args) (taskId : ℤ) (rows : List Row) : Prop where
  depth : 3 ≤ py.recursionLimit
  numbers : ∀ n ∈ [taskId, args.best_of_n, (successes rows).length, (contaminated rows).length],
    Short n
  rows : ∀ row ∈ rows, row.Fits py

variable {args : Args} {taskId : ℤ} {rows : List Row}

theorem storable_attempt {d : ℕ} {row : Row} (h : row.Fits py) :
    Storable (d + 1) (attempt row) := by
  have hkeys : ["sample_idx", "temperature", "success", "reward", "num_turns",
      "num_tool_calls", "error",
      "was_contaminated"].map PyStr.ofString |>.Nodup := by decide
  refine .dict hkeys ?_
  iterate 7 rw [List.forall_mem_cons]
  rw [List.forall_mem_singleton]
  refine ⟨.int h.sample_idx, .float _, .bool _, .float _, .int h.num_turns, .int h.num_tool_calls,
    ?_, .bool _⟩
  cases row.error with
  | none => exact .null
  | some text => exact .str text

theorem storable_metaOf (h : Fits py args taskId rows) :
    Storable py.recursionLimit (metaOf args taskId rows) := by
  obtain ⟨d, hd⟩ := Nat.exists_eq_add_of_le' h.depth
  have hnumbers := h.numbers
  rw [List.forall_mem_cons, List.forall_mem_cons, List.forall_mem_cons, List.forall_mem_singleton] at hnumbers
  have hkeys : ["task_id", "mode", "best_of_n", "num_successes", "num_contaminated", "any_success",
      "attempts"].map PyStr.ofString |>.Nodup := by decide
  rw [hd]
  refine .dict hkeys ?_
  iterate 6 rw [List.forall_mem_cons]
  rw [List.forall_mem_singleton]
  refine ⟨.int hnumbers.1, .str _, .int hnumbers.2.1, .int hnumbers.2.2.1, .int hnumbers.2.2.2, .bool _,
    .list (List.forall_mem_map.mpr fun row hrow => storable_attempt (h.rows row hrow))⟩

/-- The floats of a meta file are temperatures and rewards. -/
theorem hasFloat_metaOf {q : ℚ} (h : HasFloat q (metaOf args taskId rows)) :
    ∃ row ∈ rows, row.temperature = .fin q ∨ row.reward = .fin q := by
  have herror (row : Row) : ¬HasFloat q (optional .str row.error) := by
    cases row.error with
    | none => exact hasFloat_null
    | some text => exact hasFloat_str text
  simpa [metaOf, attempt, herror] using h

/-- **A meta file is read back**, with its line feed or without. -/
theorem loads_metaOf (h : Fits py args taskId rows) {blanks : PyStr}
    (hblanks : ∀ c ∈ blanks, isWs c = true) :
    loads py.recursionLimit (py.dumpsIndented (metaOf args taskId rows) ++ blanks) =
      .ok (metaOf args taskId rows) := by
  refine loads_dumps (storable_metaOf h) (fun q hq => ?_) (List.forall_mem_nil _) hblanks 0
  obtain ⟨row, hrow, hfloat⟩ := hasFloat_metaOf hq
  exact (h.rows row hrow).floats q hfloat

/-! ### Meta files that are cut short -/

/-- A proper beginning of the document. -/
def CutShort (py : Interp) (text : PyStr) (result : PyVal) : Prop :=
  ∃ rest, rest ≠ [] ∧ text ++ rest = py.dumpsIndented result

/-- A meta file begins and ends with a brace. -/
theorem dumpsIndented_metaOf (py : Interp) (args : Args) (taskId : ℤ) (rows : List Row) :
    ∃ items, py.dumpsIndented (metaOf args taskId rows) = ch '{' :: items ++ [ch '}'] := by
  rw [Interp.dumpsIndented, metaOf, dumps]
  exact ⟨_, rfl⟩

/-- **A meta file that is cut short is not read**, though what there is of it may be long. -/
theorem CutShort.loads_error {text : PyStr} (h : Fits py args taskId rows)
    (hcut : CutShort py text (metaOf args taskId rows)) :
    ∃ e, loads py.recursionLimit text = .error e := by
  obtain ⟨rest, hne, htext⟩ := hcut
  obtain ⟨items, hitems⟩ := dumpsIndented_metaOf py args taskId rows
  have hloads : loads py.recursionLimit (text ++ rest) = .ok (metaOf args taskId rows) := by
    rw [htext]
    have hwhole := loads_metaOf h (List.forall_mem_nil fun c => isWs c = true)
    rwa [List.append_nil] at hwhole
  rw [hitems] at htext
  cases text with
  | nil => exact ⟨_, rfl⟩
  | cons c text =>
    rw [List.cons_append, List.cons_append] at htext
    obtain ⟨rfl, hrest⟩ := List.cons.inj htext
    refine loads_cut_short hloads ⟨ch '}', ?_, rfl⟩
    -- the closing brace is in what is missing
    have hlast := congrArg List.getLast? hrest
    rw [List.getLast?_append_of_ne_nil _ hne, List.getLast?_concat] at hlast
    exact List.mem_of_getLast? hlast

/-! ### What a task has -/

/-- The files of a task: no meta file, one that was cut short, or a whole one beside the
trajectories of the same start. -/
inductive Left (py : Interp) (starts : List Start) (taskId : ℤ)
    (view : FileKind → Option PyStr) : Prop
  | fresh : view .metaFile = none → Left py starts taskId view
  | cut {st : Start} {rows : List Row} {text : PyStr} :
      st ∈ starts → st.Sampled py taskId rows → CutShort py text (metaOf st.args taskId rows) →
      view .metaFile = some text → Left py starts taskId view
  | whole {st : Start} {rows : List Row} {blanks : PyStr} :
      st ∈ starts → st.Sampled py taskId rows →
      (∀ c ∈ blanks, isWs c = true) → view .outFile = some (jsonLines py (successes rows)) →
      view .metaFile = some (py.dumpsIndented (metaOf st.args taskId rows) ++ blanks) →
      Left py starts taskId view

theorem Left.append {starts : List Start} {view : FileKind → Option PyStr}
    (h : Left py starts taskId view)
    (more : List Start) : Left py (starts ++ more) taskId view := by
  cases h with
  | fresh h => exact .fresh h
  | cut hst hsampled hcut hmeta => exact .cut (List.mem_append_left _ hst) hsampled hcut hmeta
  | whole hst hsampled hblanks hout hmeta =>
    exact .whole (List.mem_append_left _ hst) hsampled hblanks hout hmeta

/-- The data files of a task, operation by operation. -/
def dataOps (py : Interp) (rows : List Row) : List Op :=
  .create .outFile :: ((successes rows).map fun row => .write .outFile (jsonLine py row)) ++
    .create .contaminatedFile :: (contaminated rows).map fun row => .write .contaminatedFile
      (jsonLine py row)

theorem writeOps_eq : writeOps py args taskId rows =
    dataOps py rows ++ metaOps py args taskId rows := rfl

theorem kind_of_mem_dataOps {op : Op} (h : op ∈ dataOps py rows) : op.kind ≠ .metaFile := by
  rcases List.mem_append.mp h with h | h
  · rcases List.mem_cons.mp h with rfl | h
    · decide
    · obtain ⟨row, -, rfl⟩ := List.mem_map.mp h
      exact FileKind.noConfusion
  · rcases List.mem_cons.mp h with rfl | h
    · decide
    · obtain ⟨row, -, rfl⟩ := List.mem_map.mp h
      exact FileKind.noConfusion

theorem foldl_dataOps (py : Interp) (rows : List Row) (view : FileKind → Option PyStr) :
    ((dataOps py rows).foldl Op.run view) .outFile = some (jsonLines py (successes rows)) := by
  have hall : ((writeOps py {} 0 rows).foldl Op.run view) .outFile =
      some (jsonLines py (successes rows)) :=
    foldl_writeOps 0 rows view
  rw [writeOps_eq, List.foldl_append, foldl_run_of_ne] at hall
  · exact hall
  · intro op hop
    rw [kind_of_mem_metaOps hop]
    decide

/-- What there is of a meta file that is being written. -/
theorem foldl_metaOps {done ops : List Op} (hops : metaOps py args taskId rows = done ++ ops)
    (hdone : done ≠ []) (view : FileKind → Option PyStr) :
    ∃ text rest, (done.foldl Op.run view) .metaFile = some text ∧
      text ++ rest = py.dumpsIndented (metaOf args taskId rows) ++ [ch '\n'] := by
  cases done with
  | nil => exact absurd rfl hdone
  | cons op done =>
    have hpieces : metaOps py args taskId rows = .create .metaFile ::
        (py.dumpPieces (metaOf args taskId rows) ++ [[ch '\n']]).map fun piece =>
          .write .metaFile piece := by
      rw [metaOps, List.map_append, List.cons_append]
      rfl
    obtain ⟨rfl, hrest⟩ := List.cons.inj (hpieces.symm.trans hops)
    obtain ⟨written, missing, hall, rfl, -⟩ := List.map_eq_append_iff.mp hrest
    have hopen : Op.run view (.create .metaFile) .metaFile = some [] := Function.update_self _ _ _
    refine ⟨written.flatten, missing.flatten, ?_, ?_⟩
    · rw [List.foldl_cons, foldl_run_write .metaFile (fun piece => piece) written hopen,
        List.flatMap_id', List.nil_append]
    · rw [← List.flatten_append, ← hall, List.flatten_append, py.flatten_dumpPieces,
        List.flatten_singleton]

/-- Writing the meta file, from the point where the data files are complete. -/
theorem left_of_metaOps {st : Start} {starts : List Start} (hst : st ∈ starts)
    (hsampled : st.Sampled py taskId rows)
    {view : FileKind → Option PyStr} (hout : view .outFile = some (jsonLines py (successes rows)))
    (hmeta : view .metaFile = none) {done ops : List Op}
    (hops : metaOps py st.args taskId rows = done ++ ops) :
    Left py starts taskId (done.foldl Op.run view) := by
  have hdata : (done.foldl Op.run view) .outFile = some (jsonLines py (successes rows)) := by
    rw [foldl_run_of_ne fun op hop => ?_, hout]
    rw [kind_of_mem_metaOps (hops ▸ List.mem_append_left _ hop)]
    decide
  by_cases hdone : done = []
  · exact .fresh (hdone ▸ hmeta)
  obtain ⟨text, rest, htext, hall⟩ := foldl_metaOps hops hdone view
  rcases List.append_eq_append_iff.mp hall with ⟨missing, hdoc, -⟩ | ⟨blanks, hdoc, hlast⟩
  · by_cases hmissing : missing = []
    · rw [hmissing, List.append_nil] at hdoc
      refine .whole hst hsampled (List.forall_mem_nil fun c => isWs c = true) hdata ?_
      rw [htext, ← hdoc, List.append_nil]
    · exact .cut hst hsampled ⟨missing, hmissing, hdoc.symm⟩ htext
  · refine .whole hst hsampled (fun c hc => ?_) hdata (htext.trans (congrArg some hdoc))
    have hfeed : c ∈ [ch '\n'] := hlast ▸ List.mem_append_left rest hc
    rw [List.mem_singleton.mp hfeed]
    rfl

/-- A start that has got as far as `done` leaves the task like this. -/
theorem left_of_writing {st : Start} {starts : List Start} {done ops : List Op}
    {view : FileKind → Option PyStr}
    (hst : st ∈ starts) (hsampled : st.Sampled py taskId rows)
    (hops : writeOps py st.args taskId rows = done ++ ops) (hview : view .metaFile = none) :
    Left py starts taskId (done.foldl Op.run view) := by
  rw [writeOps_eq] at hops
  rcases List.append_eq_append_iff.mp hops with ⟨more, rfl, hmore⟩ | ⟨more, hdata, -⟩
  · rw [List.foldl_append]
    refine left_of_metaOps hst hsampled (foldl_dataOps py rows view) ?_ hmore
    rw [foldl_run_of_ne fun op hop => kind_of_mem_dataOps hop, hview]
  · refine .fresh ?_
    rw [foldl_run_of_ne fun op hop => ?_, hview]
    exact kind_of_mem_dataOps (hdata ▸ List.mem_append_left more hop)

/-! ### The workers -/

/-- What holds of a worker of `st`, which has begun with what earlier starts have left. -/
def Phase.Resumed (py : Interp) (starts : List Start) (st : Start) (taskId : ℤ)
    (view : FileKind → Option PyStr) : Phase → Prop
  | .start => Left py starts taskId view
  | .writing ops result => ∃ rows done before, st.Sampled py taskId rows ∧
      result = metaOf st.args taskId rows ∧ writeOps py st.args taskId rows = done ++ ops ∧
        before .metaFile = none ∧ view = done.foldl Op.run before
  | .done result => ∃ st' ∈ starts ++ [st], ∃ rows, st'.Sampled py taskId rows ∧
      result = metaOf st'.args taskId rows ∧ view .outFile = some (jsonLines py (successes rows)) ∧
        Left py (starts ++ [st]) taskId view
  | .failed _ => Left py (starts ++ [st]) taskId view

variable {starts : List Start} {st : Start}

theorem Phase.Resumed.left {view : FileKind → Option PyStr} {phase : Phase}
    (h : phase.Resumed py starts st taskId view) : Left py (starts ++ [st]) taskId view := by
  have hst : st ∈ starts ++ [st] := List.mem_append_right _ List.mem_cons_self
  cases phase with
  | start => exact h.append [st]
  | writing ops result =>
    obtain ⟨rows, done, before, hsampled, -, hops, hbefore, rfl⟩ := h
    exact left_of_writing hst hsampled hops hbefore
  | done result =>
    obtain ⟨-, -, -, -, -, -, hleft⟩ := h
    exact hleft
  | failed e => exact h

/-- What a worker begins with. -/
theorem beginTask_resumed (hoverwrite : st.args.overwrite = false)
    (hfits : ∀ st' ∈ starts, ∀ rows, st'.Sampled py taskId rows → Fits py st'.args taskId rows)
    {view : FileKind → Option PyStr} (h : Left py starts taskId view) :
    (beginTask py st.args st.world st.temperatures taskId (view .metaFile)).Resumed
      py starts st taskId view := by
  rw [beginTask, hoverwrite]
  cases h with
  | fresh hmeta =>
    rw [hmeta]
    simp only [Option.filter_none]
    cases hrollouts : sampleRollouts py st.args st.world st.temperatures taskId with
    | error e => exact .fresh hmeta
    | ok rollouts => exact ⟨_, [], view, ⟨rollouts, hrollouts, rfl⟩, rfl, rfl, hmeta, rfl⟩
  | @cut st' rows text hst' hsampled hcut hmeta =>
    obtain ⟨e, he⟩ := hcut.loads_error (hfits st' hst' rows hsampled)
    rw [hmeta]
    simp only [Bool.not_false, Option.filter_some, if_true, he]
    exact (Left.cut hst' hsampled hcut hmeta).append [st]
  | @whole st' rows blanks hst' hsampled hblanks hout hmeta =>
    rw [hmeta]
    simp only [Bool.not_false, Option.filter_some, if_true, loads_metaOf (hfits st' hst' rows hsampled) hblanks]
    exact ⟨st', List.mem_append_left _ hst', rows, hsampled, rfl, hout,
      (Left.whole hst' hsampled hblanks hout hmeta).append [st]⟩

/-- **A step of a worker** keeps what holds of it. -/
theorem collectOneTask_left (hoverwrite : st.args.overwrite = false)
    (hfits : ∀ st' ∈ starts, ∀ rows, st'.Sampled py taskId rows → Fits py st'.args taskId rows)
    (phase : Phase) (files : Files)
    (h : phase.Resumed py starts st taskId (taskFiles taskId files)) :
    (collectOneTask py st.args st.world st.temperatures taskId phase files).1.Resumed
      py starts st taskId
      (taskFiles taskId (collectOneTask py st.args st.world st.temperatures taskId phase files).2) := by
  have hst : st ∈ starts ++ [st] := List.mem_append_right _ List.mem_cons_self
  rcases phase with - | ⟨ops, result⟩ | result | e
  · exact beginTask_resumed hoverwrite hfits h
  · obtain ⟨rows, done, before, hsampled, rfl, hops, hbefore, hview⟩ := h
    rcases ops with - | ⟨op, ops⟩
    · have hleft := left_of_writing hst hsampled hops hbefore
      rw [List.append_nil] at hops
      refine ⟨st, hst, rows, hsampled, rfl, ?_, hview ▸ hleft⟩
      show taskFiles taskId files .outFile = _
      rw [hview, ← hops]
      exact foldl_writeOps taskId rows before
    · rw [collectOneTask]
      split
      · refine ⟨rows, done ++ [op], before, hsampled, rfl, ?_, hbefore, ?_⟩
        · rw [hops, List.append_assoc, List.singleton_append]
        · rw [taskFiles_update, hview, List.foldl_append]
          rfl
      · exact hview ▸ left_of_writing hst hsampled hops hbefore
  · exact h
  · exact h

/-! ### Whole runs -/

/-- The starts do not overwrite, and the meta files that they write can be read. -/
def Resumable (py : Interp) (starts : List Start) (ids : List ℤ) : Prop :=
  ∀ st ∈ starts, st.args.overwrite = false ∧
    ∀ taskId ∈ ids, ∀ rows, st.Sampled py taskId rows → Fits py st.args taskId rows

variable {files : Files} {ids : List ℤ} {out : Output}

/-- The workers of a start, whatever their turns were. -/
theorem workers_resumed (hresumable : Resumable py (starts ++ [st]) ids)
    (hleft : ∀ taskId ∈ ids, Left py starts taskId (taskFiles taskId files)) :
    ∀ taskId ∈ ids, ((st.workers py files).1 taskId).Resumed py starts st taskId
      (taskFiles taskId (st.workers py files).2) := by
  have hisolated : Interleaving.Isolated (collectOneTask py st.args st.world st.temperatures) Owns :=
    collectOneTask_isolated
  have hoverwrite := (hresumable st (List.mem_append_right _ List.mem_cons_self)).1
  intro taskId htask
  refine hisolated.run_invariant (fun taskId phase files => taskId ∈ ids →
    phase.Resumed py starts st taskId (taskFiles taskId files)) ?_ ?_ st.schedule
      (fun _ => .start, files)
    (fun taskId htask => hleft taskId htask) taskId htask
  · intro taskId phase files files' hsame h htask
    have hview : taskFiles taskId files = taskFiles taskId files' :=
      funext fun kind => hsame _ ⟨kind, rfl⟩
    exact hview ▸ h htask
  · intro taskId phase files h htask
    exact collectOneTask_left hoverwrite
      (fun st' hst' => (hresumable st' (List.mem_append_left _ hst')).2 taskId htask)
        phase files (h htask)

/-- The merged files are not those of a task. -/
theorem taskFiles_save (m : Merge) (taskId : ℤ) :
    taskFiles taskId (m.save files) = taskFiles taskId files := by
  funext kind
  have hname (name : PyStr) (h : name.take 2 ≠ [ch 't', ch 'a']) : fileName taskId kind ≠ name := by
    rintro rfl
    exact h rfl
  rw [taskFiles, Merge.save, Function.update_of_ne (hname _ (by decide)),
    Function.update_of_ne (hname _ (by decide)), Function.update_of_ne (hname _ (by decide))]
  rfl

/-- What a completed run is made of. -/
theorem collectFrom_cases (h : collectFrom py st files = some out) :
    out.metas.map some = st.taskIds.ids.map (fun taskId => ((st.workers py files).1 taskId).result?) ∧
      buildSplit st.taskIds.ids st.holdoutSize = .ok (out.seen, out.holdout) ∧
        out.files = (mergeSuccessFiles (st.workers py files).2 st.taskIds.ids out.seen).save
          (st.workers py files).2 := by
  obtain ⟨metas, hmetas, h⟩ := Option.bind_eq_some_iff.mp h
  obtain ⟨⟨seen, holdout⟩, hsplit, h⟩ := Option.bind_eq_some_iff.mp h
  obtain rfl := Option.some.inj h
  refine ⟨map_some_of_mapM hmetas, ?_, rfl⟩
  cases hok : buildSplit st.taskIds.ids st.holdoutSize with
  | error e =>
    rw [hok] at hsplit
    cases hsplit
  | ok split =>
    rw [hok] at hsplit
    rw [Option.some.inj hsplit]

/-- **What a task has** in any directory that runs have left. -/
theorem Directory.left (h : Directory py starts files) (hresumable : Resumable py starts ids) :
    ∀ taskId ∈ ids, Left py starts taskId (taskFiles taskId files) := by
  induction h with
  | empty => exact fun _ _ => .fresh rfl
  | stopped st _ ih =>
    intro taskId htask
    have hbefore := ih fun st' hst' => hresumable st' (List.mem_append_left _ hst')
    exact (workers_resumed hresumable hbefore taskId htask).left
  | completed st _ hout ih =>
    intro taskId htask
    have hbefore := ih fun st' hst' => hresumable st' (List.mem_append_left _ hst')
    obtain ⟨-, -, hfiles⟩ := collectFrom_cases hout
    rw [hfiles, taskFiles_save]
    exact (workers_resumed hresumable hbefore taskId htask).left

/-- The start whose samples a completed run has for a task. -/
theorem collectFrom_done (hdir : Directory py starts files)
    (hresumable : Resumable py (starts ++ [st]) st.taskIds.ids)
    (h : collectFrom py st files = some out) :
    ∃ (chosen : ℤ → Start) (rollouts : ℤ → List Rollout), ∀ taskId ∈ st.taskIds.ids,
      chosen taskId ∈ starts ++ [st] ∧
        sampleRollouts py (chosen taskId).args (chosen taskId).world
          (chosen taskId).temperatures taskId =
          .ok (rollouts taskId) ∧
        ((st.workers py files).1 taskId).result? =
          some (metaOf (chosen taskId).args taskId ((rollouts taskId).map Rollout.row)) ∧
        taskFiles taskId (st.workers py files).2 .outFile =
          some (jsonLines py (cleanRows (rollouts taskId))) := by
  have hleft := hdir.left fun st' hst' => hresumable st' (List.mem_append_left _ hst')
  have hresumed := workers_resumed hresumable hleft
  obtain ⟨hmetas, -, -⟩ := collectFrom_cases h
  have hall : ∀ taskId ∈ st.taskIds.ids, ∃ st' rollouts, st' ∈ starts ++ [st] ∧
      sampleRollouts py st'.args st'.world st'.temperatures taskId = .ok rollouts ∧
        ((st.workers py files).1 taskId).result? =
          some (metaOf st'.args taskId (rollouts.map Rollout.row)) ∧
          taskFiles taskId (st.workers py files).2 .outFile =
            some (jsonLines py (cleanRows rollouts)) := by
    intro taskId htask
    obtain ⟨result, hresult⟩ := exists_result hmetas taskId htask
    have hphase := hresumed taskId htask
    cases hworker : (st.workers py files).1 taskId with
    | done result' =>
      rw [hworker] at hphase
      obtain ⟨st', hst', rows, ⟨rollouts, hrollouts, rfl⟩, rfl, hout, -⟩ := hphase
      rw [successes_map_row hrollouts] at hout
      exact ⟨st', rollouts, hst', hrollouts, rfl, hout⟩
    | _ =>
      rw [hworker] at hresult
      cases hresult
  have hnonempty : Nonempty Start := ⟨st⟩
  choose! chosen rollouts hchosen using hall
  exact ⟨chosen, rollouts, hchosen⟩

/-- The merged files, for tasks whose files hold `rows`. -/
theorem collectFrom_files {rows : ℤ → List Row} (h : collectFrom py st files = some out)
    (hrows : ∀ taskId ∈ st.taskIds.ids,
      taskFiles taskId (st.workers py files).2 .outFile = some (jsonLines py (rows taskId))) :
    out.seen = st.taskIds.ids.filter (fun taskId => taskId ∉ out.holdout) ∧
      out.files "train.jsonl" = some (jsonLines py (out.seen.flatMap rows)) ∧
        out.files "eval.jsonl" = some (jsonLines py
          ((st.taskIds.ids.filter fun taskId => taskId ∈ out.holdout).flatMap rows)) ∧
          out.files "holdout_train.jsonl" = out.files "eval.jsonl" := by
  obtain ⟨-, hsplit, hfiles⟩ := collectFrom_cases h
  obtain ⟨hseen, -⟩ := buildSplit_eq hsplit
  obtain ⟨hfilterSeen, hfilterRest⟩ := filter_seen hseen
  obtain ⟨htrain, heval, hhold, -⟩ := foldl_addTask st.taskIds.ids {} hrows
  rw [hfilterSeen] at htrain
  rw [hfilterRest] at heval hhold
  obtain ⟨hfileTrain, hfileEval, hfileHold⟩ :=
    (mergeSuccessFiles (st.workers py files).2 st.taskIds.ids out.seen).save_files
      (st.workers py files).2
  rw [← hfiles] at hfileTrain hfileEval hfileHold
  exact ⟨hseen, hfileTrain.trans (congrArg some htrain), hfileEval.trans (congrArg some heval),
    (hfileHold.trans (congrArg some hhold)).trans (hfileEval.trans (congrArg some heval)).symm⟩

/-- **Collecting with interruptions.** However often the collection was stopped before, and
wherever, a run that completes has for each task all that one of the starts has sampled for it: its
meta is that of this start, and its clean trajectories, in their order, are what the training file
and the evaluation files have of it. -/
theorem collect_resumed (hdir : Directory py starts files)
    (hresumable : Resumable py (starts ++ [st]) st.taskIds.ids)
    (h : collectFrom py st files = some out) :
    ∃ (chosen : ℤ → Start) (rollouts : ℤ → List Rollout),
      (∀ taskId ∈ st.taskIds.ids, chosen taskId ∈ starts ++ [st] ∧
        sampleRollouts py (chosen taskId).args (chosen taskId).world
          (chosen taskId).temperatures taskId =
          .ok (rollouts taskId)) ∧
      out.metas = st.taskIds.ids.map (fun taskId =>
        metaOf (chosen taskId).args taskId ((rollouts taskId).map Rollout.row)) ∧
      out.seen = st.taskIds.ids.filter (fun taskId => taskId ∉ out.holdout) ∧
      out.files "train.jsonl" = some
        (jsonLines py (out.seen.flatMap fun taskId => cleanRows (rollouts taskId))) ∧
      out.files "eval.jsonl" = some (jsonLines py
        ((st.taskIds.ids.filter fun taskId => taskId ∈ out.holdout).flatMap fun taskId =>
          cleanRows (rollouts taskId))) ∧
      out.files "holdout_train.jsonl" = out.files "eval.jsonl" := by
  obtain ⟨chosen, rollouts, hchosen⟩ := collectFrom_done hdir hresumable h
  obtain ⟨hmetas, -, -⟩ := collectFrom_cases h
  have hfiles := collectFrom_files h fun taskId htask => (hchosen taskId htask).2.2.2
  refine ⟨chosen, rollouts, fun taskId htask =>
    ⟨(hchosen taskId htask).1, (hchosen taskId htask).2.1⟩, ?_, hfiles⟩
  have hresults := map_results (g := id) hmetas fun taskId htask result hresult =>
    Option.some.inj (hresult.symm.trans (hchosen taskId htask).2.2.1)
  rwa [List.map_id] at hresults

/-! ### Whether a run completes -/

/-- The task does not stop the start: its meta file is not one that an earlier start has cut short,
and if it has none, its samples can be had and written. -/
def Start.Ready (py : Interp) (starts : List Start) (st : Start) (taskId : ℤ)
    (view : FileKind → Option PyStr) : Prop :=
  (∀ text, view .metaFile = some text → ∀ st' ∈ starts, ∀ rows, st'.Sampled py taskId rows →
    ¬CutShort py text (metaOf st'.args taskId rows)) ∧ (view .metaFile = none →
    ∃ rows, st.Sampled py taskId rows ∧ ∀ op ∈ writeOps py st.args taskId rows, op.allowed = true)

/-- The worker has returned or raised. -/
def Phase.Stopped : Phase → Prop
  | .done _ => True
  | .failed _ => True
  | _ => False

instance : DecidablePred Phase.Stopped
  | .start => .isFalse id
  | .writing _ _ => .isFalse id
  | .done _ => .isTrue trivial
  | .failed _ => .isTrue trivial

/-- What a worker does with a task, whether it is `ready` or not. -/
def Phase.Decided (ready : Prop) (view : FileKind → Option PyStr) (taskId : ℤ) (files : Files) :
    Phase → Prop
  | .start => taskFiles taskId files = view
  | .writing ops _ => ready ↔ ∀ op ∈ ops, op.allowed = true
  | .done _ => ready
  | .failed _ => ¬ready

theorem Start.Sampled.unique {rows' : List Row} (h : st.Sampled py taskId rows)
    (h' : st.Sampled py taskId rows') : rows = rows' := by
  obtain ⟨rollouts, hrollouts, rfl⟩ := h
  obtain ⟨rollouts', hrollouts', rfl⟩ := h'
  rw [hrollouts, Except.ok.injEq] at hrollouts'
  rw [hrollouts']

/-- What a worker begins with tells whether its task is ready. -/
theorem beginTask_decided (hoverwrite : st.args.overwrite = false)
    (hfits : ∀ st' ∈ starts, ∀ rows, st'.Sampled py taskId rows → Fits py st'.args taskId rows)
    {view : FileKind → Option PyStr} (h : Left py starts taskId view) :
    (beginTask py st.args st.world st.temperatures taskId (view .metaFile)).Decided
      (st.Ready py starts taskId view) view taskId files := by
  rw [beginTask, hoverwrite]
  cases h with
  | fresh hmeta =>
    have hready : st.Ready py starts taskId view ↔
        ∃ rows, st.Sampled py taskId rows ∧ ∀ op ∈ writeOps py st.args taskId rows,
          op.allowed = true := by
      rw [Start.Ready, hmeta]
      refine ⟨fun h => h.2 rfl, fun h => ⟨fun text htext => ?_, fun _ => h⟩⟩
      cases htext
    rw [hmeta]
    simp only [Option.filter_none]
    cases hrollouts : sampleRollouts py st.args st.world st.temperatures taskId with
    | error e =>
      intro h
      obtain ⟨rows, ⟨rollouts, hsampled, -⟩, -⟩ := hready.mp h
      rw [hrollouts] at hsampled
      cases hsampled
    | ok rollouts =>
      have hsampled : st.Sampled py taskId (rollouts.map Rollout.row) := ⟨rollouts, hrollouts, rfl⟩
      refine hready.trans ⟨?_, fun hops => ⟨_, hsampled, hops⟩⟩
      rintro ⟨rows, hrows, hops⟩
      exact hsampled.unique hrows ▸ hops
  | @cut st' rows text hst' hsampled hcut hmeta =>
    obtain ⟨e, he⟩ := hcut.loads_error (hfits st' hst' rows hsampled)
    rw [hmeta]
    simp only [Bool.not_false, Option.filter_some, if_true, he]
    exact fun h => h.1 text hmeta st' hst' rows hsampled hcut
  | @whole st' rows blanks hst' hsampled hblanks hout hmeta =>
    have hloads := loads_metaOf (hfits st' hst' rows hsampled) hblanks
    rw [hmeta]
    simp only [Bool.not_false, Option.filter_some, if_true, hloads]
    refine ⟨fun text htext st'' hst'' rows'' hsampled'' hcut => ?_, fun h => ?_⟩
    · obtain ⟨e, he⟩ := hcut.loads_error (hfits st'' hst'' rows'' hsampled'')
      rw [← Option.some.inj (hmeta.symm.trans htext), hloads] at he
      cases he
    · rw [hmeta] at h
      cases h

theorem collectOneTask_decided (hoverwrite : st.args.overwrite = false)
    (hfits : ∀ st' ∈ starts, ∀ rows, st'.Sampled py taskId rows → Fits py st'.args taskId rows)
    {view : FileKind → Option PyStr} (hleft : Left py starts taskId view) (phase : Phase)
    (files : Files) (h : phase.Decided (st.Ready py starts taskId view) view taskId files) :
    (collectOneTask py st.args st.world st.temperatures taskId phase files).1.Decided
      (st.Ready py starts taskId view) view taskId
      (collectOneTask py st.args st.world st.temperatures taskId phase files).2 := by
  rcases phase with - | ⟨ops, result⟩ | result | e
  · obtain rfl : taskFiles taskId files = view := h
    exact beginTask_decided hoverwrite hfits hleft
  · rcases ops with - | ⟨op, ops⟩
    · exact h.mpr (List.forall_mem_nil _)
    · rw [collectOneTask]
      split
      · next hallowed => exact h.trans (List.forall_mem_cons.trans (and_iff_right hallowed))
      · next hallowed => exact fun hready => hallowed (h.mp hready op List.mem_cons_self)
  · exact h
  · exact h

theorem exists_mapM_some {α β : Type} {f : α → Option β} {xs : List α}
    (h : ∀ x ∈ xs, ∃ y, f x = some y) : ∃ ys, xs.mapM f = some ys := by
  induction xs with
  | nil => exact ⟨[], rfl⟩
  | cons x xs ih =>
    obtain ⟨⟨y, hy⟩, hrest⟩ := List.forall_mem_cons.mp h
    obtain ⟨ys, hys⟩ := ih hrest
    exact ⟨y :: ys, by rw [List.mapM_cons, hy, hys]; rfl⟩

/-- **Each worker decides** what the run does with its task, whatever the others do. -/
theorem workers_decided (hdir : Directory py starts files)
    (hresumable : Resumable py (starts ++ [st]) st.taskIds.ids) {taskId : ℤ}
    (htask : taskId ∈ st.taskIds.ids) :
    ((st.workers py files).1 taskId).Decided (st.Ready py starts taskId (taskFiles taskId files))
      (taskFiles taskId files) taskId (st.workers py files).2 := by
  have hoverwrite := (hresumable st (List.mem_append_right _ List.mem_cons_self)).1
  have hleft := hdir.left fun st' hst' => hresumable st' (List.mem_append_left _ hst')
  have hisolated : Interleaving.Isolated (collectOneTask py st.args st.world st.temperatures) Owns :=
    collectOneTask_isolated
  refine hisolated.run_invariant (fun taskId phase files' => taskId ∈ st.taskIds.ids →
      phase.Decided (st.Ready py starts taskId (taskFiles taskId files)) (taskFiles taskId files)
        taskId files') ?_ ?_ st.schedule (fun _ => .start, files) (fun taskId _ => rfl) taskId htask
  · intro taskId phase store store' hsame h htask
    cases phase with
    | start => exact (funext fun kind => (hsame _ ⟨kind, rfl⟩).symm).trans (h htask)
    | _ => exact h htask
  · intro taskId phase store h htask
    exact collectOneTask_decided hoverwrite
      (fun st' hst' => (hresumable st' (List.mem_append_left _ hst')).2 taskId htask)
      (hleft taskId htask) phase store (h htask)

/-- **What stops a run.** When the workers have stopped, the run completes exactly if every task is
ready and the tasks can be split. -/
theorem collectFrom_completes_iff (hdir : Directory py starts files)
    (hresumable : Resumable py (starts ++ [st]) st.taskIds.ids)
    (hstopped : ∀ taskId ∈ st.taskIds.ids, ((st.workers py files).1 taskId).Stopped) :
    (∃ out, collectFrom py st files = some out) ↔
      (∀ taskId ∈ st.taskIds.ids, st.Ready py starts taskId (taskFiles taskId files)) ∧
        ∃ split, buildSplit st.taskIds.ids st.holdoutSize = .ok split := by
  constructor
  · rintro ⟨out, hout⟩
    obtain ⟨hmetas, hsplit, -⟩ := collectFrom_cases hout
    refine ⟨fun taskId htask => ?_, _, hsplit⟩
    obtain ⟨result, hresult⟩ := exists_result hmetas taskId htask
    have hphase := workers_decided hdir hresumable htask
    cases hworker : (st.workers py files).1 taskId with
    | done result' =>
      rw [hworker] at hphase
      exact hphase
    | _ =>
      rw [hworker] at hresult
      cases hresult
  · rintro ⟨hready, ⟨seen, holdout⟩, hsplit⟩
    have hresults : ∀ taskId ∈ st.taskIds.ids, ∃ result,
        ((st.workers py files).1 taskId).result? = some result := by
      intro taskId htask
      have hphase := workers_decided hdir hresumable htask
      have hstop := hstopped taskId htask
      cases hworker : (st.workers py files).1 taskId with
      | done result => exact ⟨result, rfl⟩
      | failed e =>
        rw [hworker] at hphase
        exact absurd (hready taskId htask) hphase
      | _ =>
        rw [hworker] at hstop
        exact hstop.elim
    obtain ⟨metas, hmetas⟩ := exists_mapM_some hresults
    have hoption : (buildSplit st.taskIds.ids st.holdoutSize).toOption = some (seen, holdout) := by
      rw [hsplit]
      rfl
    exact ⟨_, Option.bind_eq_some_iff.mpr ⟨metas, hmetas,
      Option.bind_eq_some_iff.mpr ⟨(seen, holdout), hoption, rfl⟩⟩⟩

/-! ### Two runs -/

theorem wholeFloat_printable (q : ℚ) :
    Printable (if q = 0 then PyStr.ofString "0.0" else PyStr.ofString "1.0") := by
  split
  · decide
  · decide

/-- An interpreter that has met the floats `0` and `1` only. -/
def wholeFloats : Interp :=
  { Interp.silent with
    floatRepr := fun q => if q = 0 then "0.0" else "1.0"
    floatRepr_printable := wholeFloat_printable }

theorem readsBack_zero : ReadsBack (wholeFloats.floatRepr 0) 0 :=
  readsBack_decimal (m := 0) (List.cons_ne_nil (ch '0') []) (by decide) (by decide +kernel)

theorem readsBack_one : ReadsBack (wholeFloats.floatRepr 1) 1 :=
  readsBack_decimal (m := 1) (List.cons_ne_nil (ch '0') []) (by decide) (by decide +kernel)

theorem sampleTasks_nodup : [(3 : ℤ), 5].Nodup := by decide

def sampleStart (schedule : List ℤ) : Start where
  args := {}
  world := contentWorld
  temperatures := [.fin 0]
  taskIds := ⟨[3, 5], sampleTasks_nodup⟩
  holdoutSize := 1
  schedule := schedule

/-- What the teacher's only trajectory is. -/
def sampleRow (taskId : ℤ) : Row where
  task_id := taskId
  sample_idx := 0
  temperature := .fin 0
  success := true
  reward := .fin 1
  num_turns := 1
  num_tool_calls := 0
  error := none
  was_contaminated_from_turn := none
  messages := [Policy.systemMessage "Help the user.", Policy.userMessage "Hi",
    [("role", .str "assistant"), ("content", .str "Done."), ("tool_calls", .list [])]]

theorem sampleRollouts_sample (taskId : ℤ) :
    (sampleRollouts wholeFloats {} contentWorld [.fin 0] taskId).map (List.map Rollout.row) =
      .ok [sampleRow taskId] := rfl

theorem sampleStart_sampled {schedule : List ℤ} {taskId : ℤ} {rows : List Row}
    (h : (sampleStart schedule).Sampled wholeFloats taskId rows) : rows = [sampleRow taskId] := by
  obtain ⟨rollouts, hrollouts, rfl⟩ := h
  have hrow := sampleRollouts_sample taskId
  rw [show sampleRollouts wholeFloats {} contentWorld [.fin 0] taskId = .ok rollouts from hrollouts] at hrow
  exact Except.ok.inj hrow

theorem fits_sampleRow {taskId : ℤ} (h : taskId ∈ [3, 5]) :
    Fits wholeFloats {} taskId [sampleRow taskId] where
  depth := by decide
  numbers := by
    rcases List.mem_pair.mp h with rfl | rfl
    · decide
    · decide
  rows row hrow := by
    rw [List.mem_singleton.mp hrow]
    have hshort : Short 0 ∧ Short 1 := by decide
    refine ⟨hshort.1, hshort.2, hshort.1, ?_⟩
    rintro q (hq | hq)
    · exact PyFloat.fin.inj hq ▸ readsBack_zero
    · exact PyFloat.fin.inj hq ▸ readsBack_one

theorem resumable_sample (schedules : List (List ℤ)) :
    Resumable wholeFloats (schedules.map sampleStart) [3, 5] := by
  intro st hst
  obtain ⟨schedule, -, rfl⟩ := List.mem_map.mp hst
  refine ⟨rfl, fun taskId htask rows hsampled => ?_⟩
  exact sampleStart_sampled hsampled ▸ fits_sampleRow htask

/-- The first run is stopped when task 5 is complete and task 3 is not. -/
def stoppedRun : Files := ((sampleStart (3 :: List.replicate 80 5)).workers wholeFloats fun _ => none).2

/-- The second one has a turn for task 5, and samples task 3. -/
def resumedRun : Option Output :=
  collectFrom wholeFloats (sampleStart (5 :: List.replicate 80 3)) stoppedRun

theorem collect_resumed_sample :
    ∃ (out : Output) (chosen : ℤ → Start) (rollouts : ℤ → List Rollout),
    resumedRun = some out ∧ out.n_train = 1 ∧
    out.metas = [3, 5].map (fun taskId =>
      metaOf (chosen taskId).args taskId ((rollouts taskId).map Rollout.row)) ∧
    out.files "train.jsonl" =
      some (jsonLines wholeFloats (out.seen.flatMap fun taskId => cleanRows (rollouts taskId))) := by
  have hsome : resumedRun.map Output.n_train = some 1 := by decide +kernel
  obtain ⟨out, hout, htrain⟩ := Option.map_eq_some_iff.mp hsome
  obtain ⟨chosen, rollouts, -, hmetas, -, hfile, -, -⟩ := collect_resumed (.stopped _ .empty)
    (resumable_sample [3 :: List.replicate 80 5, 5 :: List.replicate 80 3]) hout
  exact ⟨out, chosen, rollouts, hout, htrain, hmetas, hfile⟩

/-- A run that is stopped behind the first key of a meta file. -/
def cutMeta : Files := ((sampleStart (List.replicate 8 5)).workers wholeFloats fun _ => none).2

theorem collectFrom_completes_sample :
    taskFiles 5 cutMeta .metaFile = some "\x7b\n  \"task_id\"" ∧
    ¬∃ out, collectFrom wholeFloats (sampleStart (5 :: List.replicate 80 3)) cutMeta =
      some out := by
  have hmeta : taskFiles 5 cutMeta .metaFile = some "\x7b\n  \"task_id\"" := by decide +kernel
  have hstopped : ∀ taskId ∈ (sampleStart (5 :: List.replicate 80 3)).taskIds.ids,
      (((sampleStart (5 :: List.replicate 80 3)).workers wholeFloats cutMeta).1 taskId).Stopped := by
    decide +kernel
  have hsampled : (sampleStart (List.replicate 8 5)).Sampled wholeFloats 5 [sampleRow 5] := by
    obtain ⟨rollouts, hrollouts, hrow⟩ := map_eq_ok.mp (sampleRollouts_sample 5)
    exact ⟨rollouts, hrollouts, hrow.symm⟩
  refine ⟨hmeta, fun hcompletes => ?_⟩
  obtain ⟨hready, -⟩ := (collectFrom_completes_iff (.stopped _ .empty)
    (resumable_sample [List.replicate 8 5, 5 :: List.replicate 80 3]) hstopped).mp hcompletes
  refine (hready 5 (by decide)).1 _ hmeta _ List.mem_cons_self _ hsampled ?_
  exact ⟨(wholeFloats.dumpsIndented (metaOf {} 5 [sampleRow 5])).drop 13, by decide +kernel,
    by decide +kernel⟩

end Collect

end ToolAgent
