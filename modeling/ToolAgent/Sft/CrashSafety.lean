import Mathlib.Data.List.TakeWhile
import ToolAgent.Library.Runs
import ToolAgent.Sft.Collect

/-!
# Crash consistency of the collection

`collect_one_task` rewrites three files, one after the other: the trajectories, the contaminated
ones, and the meta file with their numbers. A later call without `overwrite` trusts a meta file that
it finds. Here a process makes such calls on one task, in any order and with any outcomes, and it
may stop after any opening of a file and after any complete writing of one.

The meta file is opened last, so a first collection is safe: until its data files are complete there
is no meta file. A call with `overwrite` that finds a complete meta file is not: it truncates the
data files and leaves the old meta file beside them until it is opened itself.

The directory is the one of `collectOneTask` seen through its rows: a data file is the list of the
rows in it, and a meta file is open or holds the document that was dumped. `foldl_ops_take` says
that the operations of a worker do to the texts what the steps here do to the rows.

## Main definitions

* `Call`, `Job` — a call, and what it has to write
* `TaskDir`, `FileStep` — the files of a task, and the steps of a call on them
* `step` — the process
* `Consistent` — a complete meta file counts the lines of the data files
* `Allowed` — the calls that cannot leave it otherwise

## Main results

* `safe_fileSteps_iff` — which calls keep the directory consistent at every step
* `foldl_ops_take`, `flatMap_ops_eq_writeOps` — the steps on the texts, and the worker's operations
* `crash_consistent` — runs of allowed calls, and only these
-/

namespace ToolAgent

namespace CrashSafety

open Python Runs

open Collect (FileKind Op Row numSuccesses writeOps metaOps metaOf jsonLine successes contaminated attempt)

/-! ### Calls -/

/-- `meta["num_contaminated"]` -/
def numContaminated (result : PyVal) : Except PyErr PyVal := getKey result "num_contaminated"

/-- What a call has sampled: the rows of the two data files and the `attempts`. -/
structure Sampled where
  successes : List PyVal
  contaminated : List PyVal
  attempts : List PyVal

/-- A call of `collect_one_task`, in one of its two modes, with what its rollouts come to. -/
structure Call where
  overwrite : Bool
  mode : PyStr
  best_of_n : ℤ
  sampled : Except PyErr Sampled

/-- `meta` -/
def Call.metaOf (taskId : ℤ) (call : Call) (s : Sampled) : PyVal :=
  .dict
    [("task_id", .int taskId), ("mode", .str call.mode),
      ("best_of_n", .int (if call.mode = "teacher_rollout" then call.best_of_n else 1)),
      ("num_successes", .int s.successes.length), ("num_contaminated", .int s.contaminated.length),
      ("any_success", .bool !s.successes.isEmpty), ("attempts", .list s.attempts)]

/-- What a call has to write. The result counts the rows. -/
structure Job where
  sampled : Sampled
  result : PyVal
  num_successes : numSuccesses result = .ok (.int sampled.successes.length)
  num_contaminated : numContaminated result = .ok (.int sampled.contaminated.length)

def Call.job (taskId : ℤ) (call : Call) (s : Sampled) : Job := ⟨s, call.metaOf taskId s, rfl, rfl⟩

/-! ### The files of a task -/

structure TaskDir where
  outFile : Option (List PyVal)
  contaminatedFile : Option (List PyVal)
  /-- `some none` is a file that is open and not completely written. -/
  metaFile : Option (Option PyVal)

/-- The steps of a call: each opening for writing, and each complete writing. -/
inductive FileStep where
  | openOut
  | writeOut
  | openContaminated
  | writeContaminated
  | openMeta
  | writeMeta

/-- The steps of a call, in their order. -/
def fileSteps : List FileStep :=
  [.openOut, .writeOut, .openContaminated, .writeContaminated, .openMeta, .writeMeta]

/-- The rows that are written: those before the first that cannot be encoded. -/
def written (py : Interp) (rows : List PyVal) : List PyVal :=
  rows.takeWhile fun row => encodable (py.dumps row)

def allWritten (py : Interp) (rows : List PyVal) : Bool :=
  rows.all fun row => encodable (py.dumps row)

/-- A step on the files, and whether it has not raised. -/
def FileStep.apply (py : Interp) (job : Job) (dir : TaskDir) : FileStep → TaskDir × Bool
  | .openOut => ({ dir with outFile := some [] }, true)
  | .writeOut =>
    ({ dir with outFile := some (written py job.sampled.successes) },
      allWritten py job.sampled.successes)
  | .openContaminated => ({ dir with contaminatedFile := some [] }, true)
  | .writeContaminated =>
    ({ dir with contaminatedFile := some (written py job.sampled.contaminated) },
      allWritten py job.sampled.contaminated)
  | .openMeta => ({ dir with metaFile := some none }, true)
  | .writeMeta =>
    if encodable (py.dumpsIndented job.result) then
      ({ dir with metaFile := some (some job.result) }, true)
    else ({ dir with metaFile := some none }, false)

/-- Some steps in a row, up to one that raises. -/
def runSteps (py : Interp) (job : Job) : List FileStep → TaskDir → TaskDir
  | [], dir => dir
  | step :: steps, dir =>
    if (step.apply py job dir).2 then runSteps py job steps (step.apply py job dir).1
    else (step.apply py job dir).1

/-! ### The process -/

/-- Where the process is. -/
inductive CallPhase where
  | idle
  | writing (job : Job) (steps : List FileStep)
  | done (result : PyVal)
  | failed (e : PyErr)

/-- The process is in a call. -/
def CallPhase.busy : CallPhase → Bool
  | .writing _ _ => true
  | _ => false

inductive Event where
  /-- A call begins: it returns what it trusts, or it has sampled. -/
  | begin (call : Call)
  /-- The next step of the call. -/
  | next
  /-- The process stops. -/
  | stop

/-- The start of `collect_one_task`. -/
def beginCall (taskId : ℤ) (call : Call) (dir : TaskDir) : CallPhase :=
  match dir.metaFile.filter fun _ => !call.overwrite with
  | some (some result) => .done result
  | some none => .failed ⟨.jsonDecodeError, "Expecting value: line 1 column 1 (char 0)"⟩
  | none =>
    match call.sampled with
    | .ok s => .writing (call.job taskId s) fileSteps
    | .error e => .failed e

/-- The process and the files of the task. -/
structure State where
  phase : CallPhase
  dir : TaskDir

/-- One step of the process. -/
def step (py : Interp) (taskId : ℤ) (s : State) (event : Event) : State :=
  match event with
  | .begin call => if s.phase.busy then s else { s with phase := beginCall taskId call s.dir }
  | .stop => { s with phase := .idle }
  | .next =>
    match s.phase with
    | .writing job (file :: steps) =>
      { phase :=
          if (file.apply py job s.dir).2 then .writing job steps
          else .failed ⟨.unicodeEncodeError, "surrogates not allowed"⟩
        dir := (file.apply py job s.dir).1 }
    | .writing job [] => { s with phase := .done job.result }
    | _ => s

/-- An empty directory. -/
def init : State := ⟨.idle, ⟨none, none, none⟩⟩

/-! ### Consistency -/

/-- The numbers of the result are those of the lines in the data files. -/
def Counts (result : PyVal) (dir : TaskDir) : Prop :=
  ∃ n m : ℕ, numSuccesses result = .ok (.int n) ∧ numContaminated result = .ok (.int m) ∧
    dir.outFile.map List.length = some n ∧ dir.contaminatedFile.map List.length = some m

/-- **Consistency**: a complete meta file counts the lines of the data files. -/
def Consistent (dir : TaskDir) : Prop :=
  ∀ result, dir.metaFile = some (some result) → Counts result dir

/-- A call that finds the data files empty and leaves them so. -/
def Harmless (py : Interp) (s : Sampled) (dir : TaskDir) : Prop :=
  dir.outFile = some [] ∧ written py s.successes = [] ∧
    (allWritten py s.successes = true →
      dir.contaminatedFile = some [] ∧ written py s.contaminated = [])

/-- A call that overwrites does so where there is no complete meta file, or it is harmless. -/
def Allowed (py : Interp) (s : State) : Event → Prop
  | .begin call => s.phase.busy = false → call.overwrite = true →
      ∀ result sampled, s.dir.metaFile = some (some result) → call.sampled = .ok sampled →
        Harmless py sampled s.dir
  | _ => True

section Safe

variable {py : Interp} {job : Job} {dir : TaskDir} {steps : List FileStep}

/-- The directory is consistent wherever the steps are stopped. -/
def Safe (py : Interp) (job : Job) (steps : List FileStep) (dir : TaskDir) : Prop :=
  ∀ k, Consistent (runSteps py job (steps.take k) dir)

theorem safe_nil : Safe py job [] dir ↔ Consistent dir := by
  constructor
  · exact fun h => h 0
  · intro h k
    rw [List.take_nil]
    exact h

theorem safe_cons {file : FileStep} :
    Safe py job (file :: steps) dir ↔ Consistent dir ∧
      if (file.apply py job dir).2 = true then Safe py job steps (file.apply py job dir).1
      else Consistent (file.apply py job dir).1 := by
  by_cases hok : (file.apply py job dir).2 = true
  · rw [if_pos hok]
    have hrun : ∀ k, runSteps py job ((file :: steps).take (k + 1)) dir =
        runSteps py job (steps.take k) (file.apply py job dir).1 := fun k => by
      rw [List.take_succ_cons, runSteps, if_pos hok]
    constructor
    · exact fun h => ⟨h 0, fun k => hrun k ▸ h (k + 1)⟩
    · rintro ⟨h, hrest⟩ (- | k)
      · exact h
      · rw [hrun]
        exact hrest k
  · rw [if_neg hok]
    have hrun : ∀ k, runSteps py job ((file :: steps).take (k + 1)) dir =
        (file.apply py job dir).1 := fun k => by
      rw [List.take_succ_cons, runSteps, if_neg hok]
    constructor
    · exact fun h => ⟨h 0, hrun 0 ▸ h 1⟩
    · rintro ⟨h, hrest⟩ (- | k)
      · exact h
      · rw [hrun]
        exact hrest

/-- A meta file that is missing or incomplete owes nothing. -/
theorem consistent_of_incomplete (h : ∀ result, dir.metaFile ≠ some (some result)) :
    Consistent dir :=
  fun result hresult => absurd hresult (h result)

/-- What a complete meta file owes. -/
theorem consistent_iff {result : PyVal} {n m : ℕ} (hmeta : dir.metaFile = some (some result))
    (hn : numSuccesses result = .ok (.int n)) (hm : numContaminated result = .ok (.int m)) :
    Consistent dir ↔
      dir.outFile.map List.length = some n ∧ dir.contaminatedFile.map List.length = some m := by
  constructor
  · intro h
    obtain ⟨n', m', hn', hm', hout, hcontaminated⟩ := h result hmeta
    obtain rfl : n = n' := by simpa using hn.symm.trans hn'
    obtain rfl : m = m' := by simpa using hm.symm.trans hm'
    exact ⟨hout, hcontaminated⟩
  · rintro ⟨hout, hcontaminated⟩ result' hresult'
    obtain rfl : result = result' := by simpa using hmeta.symm.trans hresult'
    exact ⟨n, m, hn, hm, hout, hcontaminated⟩

theorem written_eq_self {rows : List PyVal} (h : allWritten py rows = true) :
    written py rows = rows :=
  List.takeWhile_eq_self_iff.mpr (List.all_eq_true.mp h)

/-- The last two steps: an incomplete meta file owes nothing, and the new one counts what was
written. -/
theorem safe_meta (hout : dir.outFile = some job.sampled.successes)
    (hcontaminated : dir.contaminatedFile = some job.sampled.contaminated) (h : Consistent dir) :
    Safe py job [.openMeta, .writeMeta] dir := by
  have hopen : ∀ d : TaskDir, d.metaFile = some none → Consistent d := fun d hd =>
    consistent_of_incomplete fun result hresult => by
      rw [hd] at hresult
      cases hresult
  rw [safe_cons]
  refine ⟨h, ?_⟩
  rw [FileStep.apply, if_pos rfl, safe_cons, FileStep.apply]
  refine ⟨hopen _ rfl, ?_⟩
  split
  · split
    · rw [safe_nil, consistent_iff rfl job.num_successes job.num_contaminated]
      dsimp only
      rw [hout, hcontaminated]
      exact ⟨rfl, rfl⟩
    · next hfalse => exact absurd rfl hfalse
  · split
    · next htrue => cases htrue
    · exact hopen _ rfl

/-- What the first four steps leave. -/
theorem safe_fileSteps : Safe py job fileSteps dir ↔
    Consistent dir ∧ Consistent { dir with outFile := some [] } ∧
      Consistent { dir with outFile := some (written py job.sampled.successes) } ∧
      (allWritten py job.sampled.successes = true →
        Consistent { dir with
          outFile := some job.sampled.successes, contaminatedFile := some [] } ∧
        Consistent { dir with
          outFile := some job.sampled.successes
          contaminatedFile := some (written py job.sampled.contaminated) }) := by
  rw [fileSteps, safe_cons, FileStep.apply, if_pos rfl, safe_cons, FileStep.apply]
  refine and_congr_right fun _ => and_congr_right fun _ => ?_
  dsimp only
  by_cases hsuccesses : allWritten py job.sampled.successes = true
  · rw [if_pos hsuccesses, safe_cons, FileStep.apply, if_pos rfl, safe_cons, FileStep.apply,
      written_eq_self hsuccesses]
    dsimp only
    refine and_congr_right fun _ => ?_
    rw [imp_iff_right hsuccesses]
    refine and_congr_right fun _ => ?_
    by_cases hcontaminated : allWritten py job.sampled.contaminated = true
    · rw [if_pos hcontaminated, written_eq_self hcontaminated]
      constructor
      · exact fun h => h 0
      · exact fun h => safe_meta rfl rfl h
    · rw [if_neg hcontaminated]
  · rw [if_neg hsuccesses]
    exact ⟨fun h => ⟨h, fun hall => absurd hall hsuccesses⟩, fun h => h.1⟩

/-- **Which calls are safe**: those that find no complete meta file, and the harmless ones. -/
theorem safe_fileSteps_iff (h : Consistent dir) :
    Safe py job fileSteps dir ↔
      ∀ result, dir.metaFile = some (some result) → Harmless py job.sampled dir := by
  rw [safe_fileSteps]
  by_cases hmeta : ∃ result, dir.metaFile = some (some result)
  · obtain ⟨result, hmeta⟩ := hmeta
    obtain ⟨n, m, hn, hm, hout, hcontaminated⟩ := h result hmeta
    have howes : ∀ outFile contaminatedFile, Consistent ⟨outFile, contaminatedFile, dir.metaFile⟩ ↔
        outFile.map List.length = some n ∧ contaminatedFile.map List.length = some m :=
      fun _ _ => consistent_iff hmeta hn hm
    obtain ⟨before, hbefore, rfl⟩ := Option.map_eq_some_iff.mp hout
    obtain ⟨noisy, hnoisy, rfl⟩ := Option.map_eq_some_iff.mp hcontaminated
    have hall : (∀ result, dir.metaFile = some (some result) → Harmless py job.sampled dir) ↔
        Harmless py job.sampled dir := ⟨fun hh => hh result hmeta, fun hh _ _ => hh⟩
    rw [hall, and_iff_right h, howes, howes, howes, howes, Harmless, hbefore, hnoisy]
    simp only [Option.map_some, Option.some.injEq, List.length_nil, and_true]
    constructor
    · rintro ⟨hnil, hwritten, hrest⟩
      have hempty : before = [] := List.length_eq_zero_iff.mp hnil.symm
      rw [← hnil] at hwritten
      refine ⟨hempty, List.length_eq_zero_iff.mp hwritten, fun hsuccesses => ?_⟩
      obtain ⟨⟨-, hnone⟩, -, hsome⟩ := hrest hsuccesses
      rw [← hnone] at hsome
      exact ⟨List.length_eq_zero_iff.mp hnone.symm, List.length_eq_zero_iff.mp hsome⟩
    · rintro ⟨rfl, hwritten, hrest⟩
      rw [hwritten]
      refine ⟨rfl, rfl, fun hsuccesses => ?_⟩
      obtain ⟨rfl, hsome⟩ := hrest hsuccesses
      rw [written_eq_self hsuccesses] at hwritten
      rw [hwritten, hsome]
      exact ⟨⟨rfl, rfl⟩, rfl, rfl⟩
  · have hnone : ∀ d : TaskDir, d.metaFile = dir.metaFile → Consistent d := fun d hd =>
      consistent_of_incomplete fun result hresult => hmeta ⟨result, hd ▸ hresult⟩
    refine iff_of_true ⟨h, hnone _ rfl, hnone _ rfl, fun _ => ⟨hnone _ rfl, hnone _ rfl⟩⟩ ?_
    exact fun result hresult => absurd ⟨result, hresult⟩ hmeta

theorem Safe.consistent (h : Safe py job steps dir) : Consistent dir := h 0

end Safe

/-! ### The runs of the process -/

section Process

variable {py : Interp} {taskId : ℤ}

/-- What holds of a call and the files. -/
def CallPhase.Inv (py : Interp) (dir : TaskDir) : CallPhase → Prop
  | .idle => True
  | .writing job steps =>
    Safe py job steps dir ∧ steps <:+ fileSteps ∧
      (steps = [] → dir.metaFile = some (some job.result))
  | .done result => Counts result dir
  | .failed _ => True

/-- The process is where its files are consistent. -/
def Inv (py : Interp) (s : State) : Prop := Consistent s.dir ∧ s.phase.Inv py s.dir

theorem eq_writeMeta {file : FileStep} (h : [file] <:+ fileSteps) : file = .writeMeta := by
  obtain ⟨before, h⟩ := h
  have hlast := congrArg List.getLast? h
  rw [List.getLast?_concat] at hlast
  exact Option.some.inj hlast

/-- A beginning call trusts a complete meta file, which is right, or it is allowed and so it is
safe. -/
theorem beginCall_inv {call : Call} {dir : TaskDir} (h : Consistent dir)
    (hallowed : call.overwrite = true → ∀ result sampled, dir.metaFile = some (some result) →
      call.sampled = .ok sampled → Harmless py sampled dir) :
    (beginCall taskId call dir).Inv py dir := by
  rw [beginCall]
  rcases hfilter : dir.metaFile.filter fun _ => !call.overwrite with - | (- | result)
  · rcases hsampled : call.sampled with e | sampled
    · trivial
    · refine ⟨(safe_fileSteps_iff h).mpr fun result hmeta => ?_, List.suffix_refl _, fun hnil => ?_⟩
      · have hoverwrite : call.overwrite = true := by
          rw [hmeta] at hfilter
          simpa using hfilter
        exact hallowed hoverwrite result sampled hmeta hsampled
      · cases hnil
  · trivial
  · exact h result (Option.filter_eq_some_iff.mp hfilter).1

/-- **A step keeps the files consistent**, if the call that begins is allowed. -/
theorem step_inv (s : State) (event : Event) (h : Inv py s) (hallowed : Allowed py s event) :
    Inv py (step py taskId s event) := by
  obtain ⟨hconsistent, hphase⟩ := h
  rcases event with call | - | -
  · rw [step]
    by_cases hbusy : s.phase.busy = true
    · rw [if_pos hbusy]
      exact ⟨hconsistent, hphase⟩
    · rw [if_neg hbusy]
      exact ⟨hconsistent, beginCall_inv hconsistent (hallowed (Bool.eq_false_of_not_eq_true hbusy))⟩
  · obtain ⟨phase, dir⟩ := s
    rcases phase with - | ⟨job, steps⟩ | result | e
    · exact ⟨hconsistent, trivial⟩
    · obtain ⟨hsafe, hsuffix, hcomplete⟩ := hphase
      rcases steps with - | ⟨file, steps⟩
      · exact ⟨hconsistent, hconsistent job.result (hcomplete rfl)⟩
      · obtain ⟨-, hrest⟩ := safe_cons.mp hsafe
        rw [step]
        dsimp only
        by_cases hok : (file.apply py job dir).2 = true
        · rw [if_pos hok] at hrest ⊢
          refine ⟨hrest.consistent, hrest, (List.suffix_cons file steps).trans hsuffix,
            fun hnil => ?_⟩
          -- the last step has written the meta file
          rw [hnil] at hsuffix
          obtain rfl := eq_writeMeta hsuffix
          rw [FileStep.apply] at hok ⊢
          split
          · rfl
          · next hencodable =>
            rw [if_neg hencodable] at hok
            cases hok
        · rw [if_neg hok] at hrest ⊢
          exact ⟨hrest, trivial⟩
    · exact ⟨hconsistent, hphase⟩
    · exact ⟨hconsistent, trivial⟩
  · exact ⟨hconsistent, trivial⟩

theorem init_inv : Inv py init := by
  refine ⟨consistent_of_incomplete fun result hresult => ?_, trivial⟩
  cases hresult

theorem run_inv {events : List Event} (h : Guarded (step py taskId) (Allowed py) init events) :
    Inv py (run (step py taskId) init events) :=
  run_invariant step_inv init_inv h

/-- A process that is in no call does nothing. -/
theorem run_next_of_idle {s : State} (h : s.phase.busy = false) (k : ℕ) :
    run (step py taskId) s (List.replicate k .next) = s := by
  have hstep : step py taskId s .next = s := by
    obtain ⟨- | ⟨job, steps⟩ | result | e, dir⟩ := s
    · rfl
    · cases h
    · rfl
    · rfl
  induction k with
  | zero => rfl
  | succ k ih =>
    rw [List.replicate_succ, run, List.foldl_cons, hstep]
    exact ih

/-- A process that goes on with a call makes the steps that are left. -/
theorem run_next_writing (job : Job) (k : ℕ) : ∀ (steps : List FileStep) (dir : TaskDir),
    (run (step py taskId) ⟨.writing job steps, dir⟩ (List.replicate k .next)).dir =
      runSteps py job (steps.take k) dir := by
  induction k with
  | zero =>
    intro steps dir
    rw [List.take_zero]
    rfl
  | succ k ih =>
    intro steps dir
    have hrun : run (step py taskId) ⟨.writing job steps, dir⟩ (List.replicate (k + 1) .next) =
        run (step py taskId) (step py taskId ⟨.writing job steps, dir⟩ .next)
          (List.replicate k .next) := rfl
    rw [hrun]
    rcases steps with - | ⟨file, steps⟩
    · rw [run_next_of_idle rfl]
      rfl
    · rw [step, List.take_succ_cons, runSteps]
      dsimp only
      by_cases hok : (file.apply py job dir).2 = true
      · rw [if_pos hok, if_pos hok]
        exact ih steps _
      · rw [if_neg hok, if_neg hok, run_next_of_idle rfl]

theorem guarded_next (k : ℕ) : ∀ s : State,
    Guarded (step py taskId) (Allowed py) s (List.replicate k .next) := by
  induction k with
  | zero => exact fun _ => trivial
  | succ k ih => exact fun s => ⟨trivial, ih _⟩

/-- **Crash consistency.** As long as the calls that begin are allowed, a complete meta file counts
the lines of the data files, wherever the process stops, and so does a result that is returned. No
other call may begin: one that is not allowed can be stopped where the meta file is wrong. -/
theorem crash_consistent (py : Interp) (taskId : ℤ) :
    (∀ events, Guarded (step py taskId) (Allowed py) init events →
      Consistent (run (step py taskId) init events).dir ∧
      ∀ result, (run (step py taskId) init events).phase = .done result →
        Counts result (run (step py taskId) init events).dir) ∧
    ∀ (events : List Event) (call : Call), Guarded (step py taskId) (Allowed py) init events →
      (Allowed py (run (step py taskId) init events) (.begin call) ↔
        ∀ k, Consistent
          (run (step py taskId) init (events ++ .begin call :: List.replicate k .next)).dir) := by
  constructor
  · intro events hguarded
    obtain ⟨hconsistent, hphase⟩ := run_inv hguarded
    refine ⟨hconsistent, fun result hdone => ?_⟩
    rw [hdone] at hphase
    exact hphase
  · intro events call hguarded
    constructor
    · intro hallowed k
      have hlast : Guarded (step py taskId) (Allowed py) (run (step py taskId) init events)
          (.begin call :: List.replicate k .next) := ⟨hallowed, guarded_next k _⟩
      exact (run_inv (Guarded.append.mpr ⟨hguarded, hlast⟩)).1
    · intro hall hidle hoverwrite result sampled hmeta hsampled
      generalize hs : run (step py taskId) init events = s at hidle hmeta
      have hbegin : step py taskId s (.begin call) =
          { s with phase := .writing (call.job taskId sampled) fileSteps } := by
        rw [step, if_neg (by rw [hidle]; exact Bool.false_ne_true), beginCall, hmeta, hoverwrite,
          hsampled]
        rfl
      have hsafe : Safe py (call.job taskId sampled) fileSteps s.dir := fun k => by
        have hk := hall k
        rw [run_append, hs] at hk
        have hrun : run (step py taskId) s (.begin call :: List.replicate k .next) =
            run (step py taskId) (step py taskId s (.begin call)) (List.replicate k .next) := rfl
        rw [hrun, hbegin, run_next_writing] at hk
        exact hk
      exact (safe_fileSteps_iff hsafe.consistent).mp hsafe result hmeta

/-! ### Two calls -/

/-- A call that samples one successful trajectory. -/
def sampleCall (overwrite : Bool) : Call :=
  ⟨overwrite, "teacher_rollout", 1, .ok ⟨[.dict [("task_id", .int 3)]], [], []⟩⟩

/-- Its beginning and all its steps. -/
def wholeCall (overwrite : Bool) : List Event :=
  .begin (sampleCall overwrite) :: List.replicate 7 .next

/-- The first call is stopped before its meta file, the second one completes. -/
theorem crash_consistent_sample :
    Counts ((sampleCall false).metaOf 3 ⟨[.dict [("task_id", .int 3)]], [], []⟩)
      (run (step .silent 3) init
        (wholeCall true |>.take 5 |>.append (.stop :: wholeCall false))).dir := by
  refine ((crash_consistent .silent 3).1 _ ?_).2 _ rfl
  -- only the first call overwrites, and it finds no meta file
  refine Guarded.append.mpr ⟨⟨fun _ _ result sampled hmeta => ?_, trivial, trivial, trivial, trivial, trivial⟩,
    trivial, fun _ hoverwrite => ?_, guarded_next 7 _⟩
  · cases hmeta
  · cases hoverwrite

/-- A whole call, and one that overwrites and stops after it has opened the first file. -/
def tornRun : State :=
  run (step .silent 3) init (wholeCall false ++ (wholeCall true).take 2 ++ [.stop])

/-- The meta file counts a trajectory, the file has none, and a third call returns that count. -/
theorem tornRun_inconsistent : ∃ result, tornRun.dir.metaFile = some (some result) ∧
    numSuccesses result = .ok (.int 1) ∧ tornRun.dir.outFile = some [] ∧
    (step .silent 3 tornRun (.begin (sampleCall false))).phase = .done result :=
  ⟨_, rfl, rfl, rfl, rfl⟩

end Process

/-! ### The texts of the files -/

section Texts

variable {py : Interp} {job : Job} {dir : TaskDir}

def rowLine (py : Interp) (row : PyVal) : PyStr := py.dumps row ++ [ch '\n']

/-- The operations of a step on the text of its file. -/
def FileStep.ops (py : Interp) (job : Job) : FileStep → List Op
  | .openOut => [.create .outFile]
  | .writeOut => job.sampled.successes.map fun row => .write .outFile (rowLine py row)
  | .openContaminated => [.create .contaminatedFile]
  | .writeContaminated => job.sampled.contaminated.map fun row => .write .contaminatedFile
    (rowLine py row)
  | .openMeta => [.create .metaFile]
  | .writeMeta =>
    (py.dumpPieces job.result).map
    (fun piece => .write .metaFile piece) ++ [.write .metaFile [ch '\n']]

/-- The text of a meta file that is just opened or complete. -/
def metaText (py : Interp) : Option PyVal → PyStr
  | none => []
  | some result => py.dumpsIndented result ++ [ch '\n']

/-- The texts of the files of a task. -/
def TaskDir.texts (py : Interp) (dir : TaskDir) : FileKind → Option PyStr
  | .outFile => dir.outFile.map fun rows => rows.flatMap (rowLine py)
  | .contaminatedFile => dir.contaminatedFile.map fun rows => rows.flatMap (rowLine py)
  | .metaFile => dir.metaFile.map (metaText py)

/-- Every row of a data file is a line of it. -/
theorem length_readLines_rows (rows : List PyVal) :
    (readLines (rows.flatMap (rowLine py))).length = rows.length := by
  have hlines : readLines (rows.flatMap (rowLine py)) = rows.map (rowLine py) :=
    readLines_flatMap (fun row => py.dumps row) rows fun _ _ => py.dumps_printable _
  rw [hlines, List.length_map]

/-- Writing to a file that has just been opened. -/
theorem foldl_write {α : Type} {kind : FileKind} {view : FileKind → Option PyStr}
    (h : view kind = some []) (f : α → PyStr) (xs : List α) :
    (xs.map fun x => Op.write kind (f x)).foldl Op.run view =
      Function.update view kind (some (xs.flatMap f)) := by
  funext kind'
  by_cases hkind : kind' = kind
  · rw [hkind, Function.update_self]
    exact Collect.foldl_run_write kind f xs h
  · rw [Function.update_of_ne hkind]
    refine Collect.foldl_run_of_ne fun op hop => ?_
    obtain ⟨x, -, rfl⟩ := List.mem_map.mp hop
    exact Ne.symm hkind

/-- Writing a document in pieces, and its line feed. -/
theorem foldl_dump {view : FileKind → Option PyStr} (h : view .metaFile = some [])
    (result : PyVal) :
    ((py.dumpPieces result).map (fun piece => Op.write .metaFile piece) ++
        [Op.write .metaFile [ch '\n']]).foldl Op.run view =
      Function.update view .metaFile (some (metaText py (some result))) := by
  have hlast (view : FileKind → Option PyStr) : Op.run view (.write .metaFile [ch '\n']) =
      Function.update view .metaFile (some ((view .metaFile).getD [] ++ [ch '\n'])) := rfl
  rw [List.foldl_append, foldl_write h fun piece => piece, List.flatMap_id', py.flatten_dumpPieces,
    List.foldl_cons, List.foldl_nil, hlast, Function.update_self, Function.update_idem]
  rfl

/-- Everything that the job writes can be encoded. -/
def Job.Encodable (py : Interp) (job : Job) : Prop :=
  allWritten py job.sampled.successes = true ∧ allWritten py job.sampled.contaminated = true ∧
    encodable (py.dumpsIndented job.result) = true

/-- The file that a step writes has just been opened. -/
def FileStep.Ready (dir : TaskDir) : FileStep → Prop
  | .writeOut => dir.outFile = some []
  | .writeContaminated => dir.contaminatedFile = some []
  | .writeMeta => dir.metaFile = some none
  | _ => True

/-- **A step does to the rows what its operations do to the texts.** -/
theorem foldl_ops (hjob : job.Encodable py) (file : FileStep) (hready : file.Ready dir) :
    (file.apply py job dir).2 = true ∧
      (file.ops py job).foldl Op.run (dir.texts py) = (file.apply py job dir).1.texts py := by
  obtain ⟨hsuccesses, hcontaminated, hresult⟩ := hjob
  cases file with
  | openOut =>
    refine ⟨rfl, funext fun kind => ?_⟩
    cases kind <;> rfl
  | writeOut =>
    refine ⟨hsuccesses, ?_⟩
    have hopen : dir.texts py .outFile = some [] := by
      rw [TaskDir.texts, show dir.outFile = some [] from hready]
      rfl
    rw [FileStep.ops, foldl_write hopen, FileStep.apply, written_eq_self hsuccesses]
    funext kind
    cases kind <;> rfl
  | openContaminated =>
    refine ⟨rfl, funext fun kind => ?_⟩
    cases kind <;> rfl
  | writeContaminated =>
    refine ⟨hcontaminated, ?_⟩
    have hopen : dir.texts py .contaminatedFile = some [] := by
      rw [TaskDir.texts, show dir.contaminatedFile = some [] from hready]
      rfl
    rw [FileStep.ops, foldl_write hopen, FileStep.apply, written_eq_self hcontaminated]
    funext kind
    cases kind <;> rfl
  | openMeta =>
    refine ⟨rfl, funext fun kind => ?_⟩
    cases kind <;> rfl
  | writeMeta =>
    rw [FileStep.apply, if_pos hresult]
    have hopen : dir.texts py .metaFile = some [] := by
      rw [TaskDir.texts, show dir.metaFile = some none from hready]
      rfl
    refine ⟨rfl, ?_⟩
    rw [FileStep.ops, foldl_dump hopen]
    funext kind
    cases kind <;> rfl

/-- Every step that writes follows the opening of its file. -/
def ReadySteps (py : Interp) (job : Job) : List FileStep → TaskDir → Prop
  | [], _ => True
  | file :: steps, dir => file.Ready dir ∧ ReadySteps py job steps (file.apply py job dir).1

theorem readySteps_fileSteps : ReadySteps py job fileSteps dir :=
  ⟨trivial, rfl, trivial, rfl, trivial, rfl, trivial⟩

/-- Wherever a call is stopped, the texts are those of the rows. -/
theorem foldl_ops_take (hjob : job.Encodable py) {steps : List FileStep} :
    ∀ (k : ℕ) {dir : TaskDir}, ReadySteps py job steps dir →
      ((steps.take k).flatMap (FileStep.ops py job)).foldl Op.run (dir.texts py) =
        (runSteps py job (steps.take k) dir).texts py := by
  induction steps with
  | nil =>
    intro k dir _
    rw [List.take_nil]
    rfl
  | cons file steps ih =>
    rintro (- | k) dir ⟨hready, hrest⟩
    · rfl
    · obtain ⟨hok, hops⟩ := foldl_ops hjob file hready
      rw [List.take_succ_cons, List.flatMap_cons, List.foldl_append, hops, ih k hrest, runSteps,
        if_pos hok]

/-- **The steps are those of the worker**: together they are the operations that `collectOneTask`
makes in its mode. -/
theorem flatMap_ops_eq_writeOps (args : Collect.Args) (taskId : ℤ) (rows : List Row) :
    fileSteps.flatMap (FileStep.ops py (Call.job taskId
      ⟨args.overwrite, "teacher_rollout", args.best_of_n, .ok
        ⟨(successes rows).map Row.toVal, (contaminated rows).map Row.toVal, rows.map attempt⟩⟩
      ⟨(successes rows).map Row.toVal, (contaminated rows).map Row.toVal, rows.map attempt⟩)) =
      writeOps py args taskId rows := by
  have hresult : Call.metaOf taskId
      ⟨args.overwrite, "teacher_rollout", args.best_of_n, .ok
        ⟨(successes rows).map Row.toVal, (contaminated rows).map Row.toVal, rows.map attempt⟩⟩
      ⟨(successes rows).map Row.toVal, (contaminated rows).map Row.toVal, rows.map attempt⟩ =
        metaOf args taskId rows := by
    rw [Call.metaOf, metaOf, if_pos rfl, List.length_map, List.length_map, List.isEmpty_map]
  rw [writeOps, metaOps, ← hresult]
  simp only [fileSteps, List.flatMap_cons, List.flatMap_nil, FileStep.ops, Call.job, List.map_map,
    List.append_nil, List.append_assoc, List.cons_append]
  rfl

end Texts

end CrashSafety

end ToolAgent
