import ToolAgent.Library.Interleaving
import ToolAgent.Trainer.JudgeReward
import ToolAgent.Training.JudgeScores
import Mathlib.Logic.Relation

/-!
# The dense rewards of a batch

`densify_rewards` of `toolagent.training.llm_judge`, in three passes. The first extracts the steps
of the failed rows, the second has them scored by a pool of threads, the third writes the rewards.

## The threads

One thread scores the steps of one row, as `score_steps` does. All threads share one cache, and a
judge that answers its `k`-th call. A turn of a thread is one look into the cache, one call of the
judge, or one entry into the cache. A schedule is any list of rows, and when it is used up the
threads that are left are run to their ends. So every interleaving is the effect of some schedule,
whatever the number of workers.

Which calls are made depends on the schedule and on the keys of the cache, not on the answers. So
the calls can be listed without the judge.

## Why the rows are not isolated

* What `score_steps` lets pass ends the thread, and the pool raises it again. The whole batch is
  without a reward.
* A reward is written at one position, and the rest of the row stays. So a row whose reward is not
  at that position, or not all of it, gets another total.

## Main definitions

* `threadStep` — one turn of a thread
* `densifyRewards` — the three passes
* `RowIsolated` — what they promise of a row

## Main results

* `threadStep_reaches` — a thread that runs alone is `score_steps`
* `completes_iff` — when no thread raises
* `densifyRewards_isolated_iff` — when the rows are isolated
-/

namespace ToolAgent

namespace DensifyRewards

open Python LlmJudge Interleaving
open JudgeReward (Tensor total)

variable {rows width : ℕ}

/-! ### The batch -/

/-- A response mask. Nothing says that it is as wide as the rewards. -/
structure Mask (rows : ℕ) where
  width : ℕ
  row : Tensor rows width ℤ

/-- What is read of the batch that is rewritten. -/
structure TrainBatch (rows width : ℕ) where
  rm_scores : Tensor rows width ℚ
  response_mask : Option (Mask rows)
  uid : Option (List PyVal)

/-- What is read of the output of the rollout. -/
structure GenOutput (rows : ℕ) where
  response_mask : Option (Mask rows)
  llm_judge_messages : Option (List PyVal)
  raw_prompt : Option (List PyVal)
  uid : Option (List PyVal)

/-- `outcomes[i]` -/
def outcome (batch : TrainBatch rows width) (i : Fin rows) : ℚ := total (batch.rm_scores i)

/-- `raw_prompts[i]`, if there is one. -/
def messagesAt (gen : GenOutput rows) (i : Fin rows) : Option PyVal :=
  (gen.llm_judge_messages <|> gen.raw_prompt).bind (·[i.val]?)

def taskIdAt (py : Interp) (batch : TrainBatch rows width) (gen : GenOutput rows) (i : Fin rows) :
    PyStr :=
  match (batch.uid <|> gen.uid).bind (·[i.val]?) with
  | some uid => py.str uid
  | none => PyStr.ofString (toString i.val)

def responseMask (batch : TrainBatch rows width) (gen : GenOutput rows) : Option (Mask rows) :=
  gen.response_mask <|> batch.response_mask

/-! ### The first pass -/

/-- What the first pass finds in a row. -/
inductive Extraction
  | success
  | missing
  | steps (steps : List Step)

def extraction (py : Interp) (config : JudgeConfig) (batch : TrainBatch rows width)
    (gen : GenOutput rows) (i : Fin rows) : Extraction :=
  if 1 ≤ outcome batch i then .success
  else
    match messagesAt gen i with
    | some (.list messages) =>
      match judgedSteps py config messages with
      | .ok steps => .steps steps
      | .error _ => .missing
    | _ => .missing

/-- The steps of `to_judge.get(i)`. A row without steps is not judged. -/
def toJudge (py : Interp) (config : JudgeConfig) (batch : TrainBatch rows width)
    (gen : GenOutput rows) (i : Fin rows) : List Step :=
  match extraction py config batch gen i with
  | .steps steps => steps
  | _ => []

/-! ### The second pass -/

/-- A thread of the pool: the steps that it has left, the scores so far, and the samples drawn for
the first step that is left, with its key. -/
inductive Thread
  | running (todo : List Step) (scores : List ℚ) (drawn : Option (PyStr × List ℚ))
  | raised (e : PyErr)

/-- What the threads share. A call of the judge is given by its number and its prompt. -/
structure Shared where
  cache : List (PyStr × ℚ)
  asked : List (ℕ × Prompt)

section Threads

variable (py : Interp) (judge : Judge) (config : JudgeConfig)

/-- `sum(samples) / len(samples) if samples else 0.0` -/
def meanSample (drawn : List ℚ) : ℚ := if drawn.isEmpty then 0 else drawn.sum / drawn.length

/-- One turn in `score_steps`. -/
def threadStep (taskId : PyStr) : Thread → Shared → Thread × Shared
  | .running (step :: todo) scores none, shared =>
    match stepCacheKey py taskId step config.max_step_chars with
    | .error e => (.raised e, shared)
    | .ok key =>
      match shared.cache.lookup key with
      | some value => (.running todo (scores ++ [value]) none, shared)
      | none => (.running (step :: todo) scores (some (key, [])), shared)
  | .running (step :: todo) scores (some (key, drawn)), shared =>
    if drawn.length < effectiveNSamples config then
      let prompt := buildStepPrompt py taskId step (getRubric config.domain) config.max_step_chars
      let k := shared.asked.length
      let shared := { shared with asked := shared.asked ++ [(k, prompt)] }
      match sample py judge prompt k with
      | .error e => (.raised e, shared)
      | .ok s => (.running (step :: todo) scores (some (key, drawn ++ [s])), shared)
    else
      (.running todo (scores ++ [meanSample drawn]) none,
        { shared with cache := (key, meanSample drawn) :: shared.cache })
  | thread, shared => (thread, shared)

/-- A number of turns after which a thread with these steps is done. -/
def turnsOf (steps : List Step) : ℕ := steps.length * (effectiveNSamples config + 2)

variable (batch : TrainBatch rows width) (gen : GenOutput rows) (schedule : List (Fin rows))

/-- The threads and what they share, when all of them are done. -/
def judgeAll : Config (Fin rows) Shared Thread :=
  let steps := toJudge py config batch gen
  run (fun i => threadStep py judge config (taskIdAt py batch gen i))
    (fun i => .running (steps i) [] none, ⟨[], []⟩)
    (schedule ++ (List.finRange rows).flatMap fun i => List.replicate (turnsOf config (steps i)) i)

/-- `scores_by_traj.get(i)` -/
def scoresByTraj (i : Fin rows) : Option (List ℚ) :=
  if (toJudge py config batch gen i).isEmpty then none
  else
    match (judgeAll py judge config batch gen schedule).1 i with
    | .running _ scores _ => some scores
    | .raised _ => none

/-- What the thread of a row raised. -/
def raisedBy (i : Fin rows) : Option PyErr :=
  match (judgeAll py judge config batch gen schedule).1 i with
  | .running _ _ _ => none
  | .raised e => some e

end Threads

/-! ### The third pass -/

/-- `tensor[idx]` of a tensor of one dimension: which position that is. -/
def tensorIndex (width : ℕ) (idx : ℤ) : Except PyErr (Fin width) :=
  let pos := if idx < 0 then idx + width else idx
  if h : 0 ≤ pos ∧ pos < width then .ok ⟨pos.toNat, by omega⟩
  else
    .error ⟨.indexError,
      PyStr.ofString s!"index {idx} is out of bounds for dimension 0 with size {width}"⟩

/-- `row.nonzero(as_tuple=False)[-1]`, if there is one. -/
def lastNonzero {α : Type} [Zero α] [DecidableEq α] {width : ℕ} (row : Fin width → α) :
    Option (Fin width) :=
  ((List.finRange width).filter (row · ≠ 0)).getLast?

/-- The position at which the reward of a row is written. -/
def writePosition (mask : Option (Mask rows)) (i : Fin rows) (row : Fin width → ℚ) :
    Except PyErr (Fin width) :=
  let last : Option ℕ :=
    match mask with
    | some mask => (lastNonzero (mask.row i)).map Fin.val
    | none => (lastNonzero row).map Fin.val
  match last with
  | some p => tensorIndex width p
  | none => tensorIndex width (width - 1)

/-- `dense`, of a failed row. -/
def denseReward (config : JudgeConfig) (outcome : ℚ) : Option (List ℚ) → ℚ
  | some scores => blendReward outcome scores config.alpha
  | none => outcome

section Rewards

variable (py : Interp) (judge : Judge) (config : JudgeConfig) (batch : TrainBatch rows width)
  (gen : GenOutput rows)

/-- The round of row `i`. -/
def writeRow (scores : Fin rows → Option (List ℚ)) (rm : Tensor rows width ℚ) (i : Fin rows) :
    Except PyErr (Tensor rows width ℚ) :=
  if 1 ≤ outcome batch i then .ok rm
  else do
    let p ← writePosition (responseMask batch gen) i (rm i)
    let row := Function.update (rm i) p (denseReward config (outcome batch i) (scores i))
    .ok (Function.update rm i row)

/-- `sum(xs) / max(1, len(xs))` -/
def mean (xs : List ℚ) : ℚ := xs.sum / max 1 (xs.length : ℚ)

def metrics (scores : Fin rows → Option (List ℚ)) : List (PyStr × ℚ) :=
  let all := List.finRange rows
  let successes := all.filter fun i => 1 ≤ outcome batch i
  let failures := all.filter fun i => ¬1 ≤ outcome batch i
  let judged := failures.filterMap scores
  let missing := all.filter fun i =>
    match extraction py config batch gen i with
    | .missing => true
    | _ => false
  [("llm_judge/enabled", 1),
    ("llm_judge/trajectories", rows),
    ("llm_judge/judged_failures", judged.length),
    ("llm_judge/skipped_successes", successes.length),
    ("llm_judge/missing_messages", missing.length),
    ("llm_judge/outcome_rate", successes.length / max 1 (rows : ℚ)),
    ("llm_judge/mean_dense_reward", mean (all.map fun i =>
      if 1 ≤ outcome batch i then 1 else denseReward config (outcome batch i) (scores i))),
    ("llm_judge/mean_failure_process", mean ((judged.filter (!·.isEmpty)).map mean))]

/-- The rewards after the call, and the metrics. The pool raises again what the first row's thread
raised that raised something. -/
def densifyRewards (schedule : List (Fin rows)) :
    Except PyErr (Tensor rows width ℚ × List (PyStr × ℚ)) :=
  match (List.finRange rows).findSome? (raisedBy py judge config batch gen schedule) with
  | some e => .error e
  | none => do
    let scores := scoresByTraj py judge config batch gen schedule
    let rm ← (List.finRange rows).foldlM (writeRow config batch gen scores) batch.rm_scores
    .ok (rm, metrics py config batch gen scores)

end Rewards

/-! ### A thread alone -/

section Thread

variable {py : Interp} {judge : Judge} {config : JudgeConfig} {taskId : PyStr} {step : Step}
  {todo : List Step} {scores drawn : List ℚ} {key : PyStr} {shared : Shared}

/-- The turns of a thread, one by one. -/
theorem threadStep_keyError {e : PyErr}
    (hkey : stepCacheKey py taskId step config.max_step_chars = .error e) :
    threadStep py judge config taskId (.running (step :: todo) scores none) shared =
      (.raised e, shared) := by
  simp only [threadStep, hkey]

theorem threadStep_hit {value : ℚ}
    (hkey : stepCacheKey py taskId step config.max_step_chars = .ok key)
    (hentry : shared.cache.lookup key = some value) :
    threadStep py judge config taskId (.running (step :: todo) scores none) shared =
      (.running todo (scores ++ [value]) none, shared) := by
  simp only [threadStep, hkey, hentry]

theorem threadStep_miss (hkey : stepCacheKey py taskId step config.max_step_chars = .ok key)
    (hentry : shared.cache.lookup key = none) :
    threadStep py judge config taskId (.running (step :: todo) scores none) shared =
      (.running (step :: todo) scores (some (key, [])), shared) := by
  simp only [threadStep, hkey, hentry]

/-- The next call of the judge that is made for a step. -/
def nextCall (py : Interp) (config : JudgeConfig) (taskId : PyStr) (step : Step) (shared : Shared) :
    ℕ × Prompt :=
  (shared.asked.length,
    buildStepPrompt py taskId step (getRubric config.domain) config.max_step_chars)

/-- The call is made. -/
def Shared.ask (shared : Shared) (call : ℕ × Prompt) : Shared :=
  { shared with asked := shared.asked ++ [call] }

theorem threadStep_askError {e : PyErr} (hdrawn : drawn.length < effectiveNSamples config)
    (hs : sample py judge (nextCall py config taskId step shared).2 shared.asked.length = .error e) :
    threadStep py judge config taskId (.running (step :: todo) scores (some (key, drawn))) shared =
      (.raised e, shared.ask (nextCall py config taskId step shared)) := by
  simp only [nextCall] at hs
  simp only [threadStep, if_pos hdrawn, hs]
  rfl

theorem threadStep_ask {s : ℚ} (hdrawn : drawn.length < effectiveNSamples config)
    (hs : sample py judge (nextCall py config taskId step shared).2 shared.asked.length = .ok s) :
    threadStep py judge config taskId (.running (step :: todo) scores (some (key, drawn))) shared =
      (.running (step :: todo) scores (some (key, drawn ++ [s])),
        shared.ask (nextCall py config taskId step shared)) := by
  simp only [nextCall] at hs
  simp only [threadStep, if_pos hdrawn, hs]
  rfl

theorem threadStep_write (hdrawn : ¬drawn.length < effectiveNSamples config) :
    threadStep py judge config taskId (.running (step :: todo) scores (some (key, drawn))) shared =
      (.running todo (scores ++ [meanSample drawn]) none,
        { shared with cache := (key, meanSample drawn) :: shared.cache }) := by
  simp only [threadStep, if_neg hdrawn]

variable (py judge config taskId shared) in
/-- What one turn can do. -/
inductive Turned : Thread → Thread × Shared → Prop
  | finished {scores : List ℚ} {drawn : Option (PyStr × List ℚ)} :
      Turned (.running [] scores drawn) (.running [] scores drawn, shared)
  | stopped {e : PyErr} : Turned (.raised e) (.raised e, shared)
  | keyError {step : Step} {todo : List Step} {scores : List ℚ} {e : PyErr}
      (hkey : stepCacheKey py taskId step config.max_step_chars = .error e) :
      Turned (.running (step :: todo) scores none) (.raised e, shared)
  | hit {step : Step} {todo : List Step} {scores : List ℚ} {key : PyStr} {value : ℚ}
      (hkey : stepCacheKey py taskId step config.max_step_chars = .ok key)
      (hentry : shared.cache.lookup key = some value) :
      Turned (.running (step :: todo) scores none) (.running todo (scores ++ [value]) none, shared)
  | miss {step : Step} {todo : List Step} {scores : List ℚ} {key : PyStr}
      (hkey : stepCacheKey py taskId step config.max_step_chars = .ok key)
      (hentry : shared.cache.lookup key = none) :
      Turned (.running (step :: todo) scores none)
        (.running (step :: todo) scores (some (key, [])), shared)
  | askError {step : Step} {todo : List Step} {scores drawn : List ℚ} {key : PyStr} {e : PyErr}
      (hdrawn : drawn.length < effectiveNSamples config)
      (hs : sample py judge (nextCall py config taskId step shared).2 shared.asked.length = .error e) :
      Turned (.running (step :: todo) scores (some (key, drawn)))
        (.raised e, shared.ask (nextCall py config taskId step shared))
  | ask {step : Step} {todo : List Step} {scores drawn : List ℚ} {key : PyStr} {s : ℚ}
      (hdrawn : drawn.length < effectiveNSamples config)
      (hs : sample py judge (nextCall py config taskId step shared).2 shared.asked.length = .ok s) :
      Turned (.running (step :: todo) scores (some (key, drawn)))
        (.running (step :: todo) scores (some (key, drawn ++ [s])),
          shared.ask (nextCall py config taskId step shared))
  | write {step : Step} {todo : List Step} {scores drawn : List ℚ} {key : PyStr}
      (hdrawn : ¬drawn.length < effectiveNSamples config) :
      Turned (.running (step :: todo) scores (some (key, drawn)))
        (.running todo (scores ++ [meanSample drawn]) none,
          { shared with cache := (key, meanSample drawn) :: shared.cache })

theorem threadStep_turned (thread : Thread) (shared : Shared) :
    Turned py judge config taskId shared thread
      (threadStep py judge config taskId thread shared) := by
  rcases thread with ⟨_ | ⟨step, todo⟩, scores, _ | ⟨key, drawn⟩⟩ | e
  · exact .finished
  · exact .finished
  · rcases hkey : stepCacheKey py taskId step config.max_step_chars with e | key
    · rw [threadStep_keyError hkey]
      exact .keyError hkey
    · rcases hentry : shared.cache.lookup key with _ | value
      · rw [threadStep_miss hkey hentry]
        exact .miss hkey hentry
      · rw [threadStep_hit hkey hentry]
        exact .hit hkey hentry
  · by_cases hdrawn : drawn.length < effectiveNSamples config
    · rcases hs : sample py judge (nextCall py config taskId step shared).2 shared.asked.length with
        e | s
      · rw [threadStep_askError hdrawn hs]
        exact .askError hdrawn hs
      · rw [threadStep_ask hdrawn hs]
        exact .ask hdrawn hs
    · rw [threadStep_write hdrawn]
      exact .write hdrawn
  · exact .stopped

theorem samples_length {prompt : Prompt} {n : ℕ} : ∀ {k : ℕ} {drawn : List ℚ},
    samples py judge prompt k n = .ok drawn → drawn.length = n := by
  induction n with
  | zero =>
    intro k drawn h
    cases h
    rfl
  | succ n ih =>
    intro k drawn h
    obtain ⟨s, -, h⟩ := bind_eq_ok.mp h
    obtain ⟨rest, hrest, rfl⟩ := map_eq_ok.mp h
    exact congrArg (· + 1) (ih hrest)

variable (py judge config taskId) in
/-- The turns of a thread that runs alone. -/
abbrev Turns : Thread × Shared → Thread × Shared → Prop :=
  Relation.ReflTransGen fun p q => threadStep py judge config taskId p.1 p.2 = q

/-- The samples of a step, drawn one by one. -/
theorem draws_reach (r : ℕ) : ∀ (drawn : List ℚ) (shared : Shared),
    drawn.length + r = effectiveNSamples config →
    (∀ e, samples py judge (nextCall py config taskId step shared).2 shared.asked.length r = .error e →
      ∃ shared', Turns py judge config taskId
        (.running (step :: todo) scores (some (key, drawn)), shared) (.raised e, shared')) ∧
    ∀ more,
      samples py judge (nextCall py config taskId step shared).2 shared.asked.length r = .ok more →
      ∃ asked, asked.length = shared.asked.length + r ∧ Turns py judge config taskId
        (.running (step :: todo) scores (some (key, drawn)), shared)
        (.running (step :: todo) scores (some (key, drawn ++ more)), ⟨shared.cache, asked⟩) := by
  induction r with
  | zero =>
    intro drawn shared _
    constructor
    · rintro e he
      cases he
    · intro more hmore
      obtain rfl := Except.ok.inj hmore
      rw [List.append_nil]
      exact ⟨shared.asked, rfl, .refl⟩
  | succ r ih =>
    intro drawn shared hr
    have hlt : drawn.length < effectiveNSamples config := by omega
    rw [samples]
    rcases hs : sample py judge (nextCall py config taskId step shared).2 shared.asked.length with
      e | s
    · constructor
      · rintro e' he'
        obtain rfl := Except.error.inj he'
        exact ⟨_, .single (threadStep_askError hlt hs)⟩
      · rintro more hmore
        cases hmore
    · have hlength : (shared.ask (nextCall py config taskId step shared)).asked.length =
          shared.asked.length + 1 := List.length_append
      obtain ⟨hraised, hdrawn⟩ := ih (drawn ++ [s])
        (shared.ask (nextCall py config taskId step shared))
        (by rw [List.length_append, List.length_singleton]; omega)
      rw [hlength] at hraised hdrawn
      constructor
      · intro e he
        obtain ⟨shared', hturns⟩ := hraised e (map_eq_error.mp he)
        exact ⟨shared', .head (threadStep_ask hlt hs) hturns⟩
      · intro more hmore
        obtain ⟨rest, hrest, rfl⟩ := map_eq_ok.mp hmore
        obtain ⟨asked, hasked, hturns⟩ := hdrawn rest hrest
        rw [List.append_assoc] at hturns
        exact ⟨asked, by omega, .head (threadStep_ask hlt hs) hturns⟩

variable (py judge config taskId) in
/-- From here a thread that runs alone comes to what the computation returns. -/
def Reaches (start : Thread × Shared) (scores : List ℚ)
    (result : Except PyErr (List ℚ × List (PyStr × ℚ) × ℕ)) : Prop :=
  (∀ e, result = .error e → ∃ shared', Turns py judge config taskId start (.raised e, shared')) ∧
  ∀ new cache k, result = .ok (new, cache, k) → ∃ asked, asked.length = k ∧
    Turns py judge config taskId start (.running [] (scores ++ new) none, ⟨cache, asked⟩)

section Reaches

variable {start next : Thread × Shared} {result : Except PyErr (List ℚ × List (PyStr × ℚ) × ℕ)}

theorem Reaches.raised {e : PyErr} (h : Turns py judge config taskId start (.raised e, shared)) :
    Reaches py judge config taskId start scores (.error e) := by
  constructor
  · rintro e' he'
    obtain rfl := Except.error.inj he'
    exact ⟨shared, h⟩
  · rintro new cache k hnew
    cases hnew

theorem Reaches.scored {value : ℚ} (hfirst : Turns py judge config taskId start next)
    (h : Reaches py judge config taskId next (scores ++ [value]) result) :
    Reaches py judge config taskId start scores (result.map fun r => (value :: r.1, r.2)) := by
  obtain ⟨hraised, hscored⟩ := h
  constructor
  · intro e he
    obtain ⟨shared', hturns⟩ := hraised e (map_eq_error.mp he)
    exact ⟨shared', hfirst.trans hturns⟩
  · intro new cache k hnew
    obtain ⟨⟨new, cache, k⟩, hnew, hr⟩ := map_eq_ok.mp hnew
    obtain ⟨asked, hasked, hturns⟩ := hscored new cache k hnew
    rw [List.append_assoc] at hturns
    cases hr
    exact ⟨asked, hasked, hfirst.trans hturns⟩

end Reaches

/-- **A thread that runs alone is `score_steps`.** -/
theorem threadStep_reaches (steps : List Step) : ∀ (scores : List ℚ) (shared : Shared),
    Reaches py judge config taskId (.running steps scores none, shared) scores
      (scoreStepsCached py judge config taskId shared.cache shared.asked.length steps) := by
  induction steps with
  | nil =>
    intro scores shared
    constructor
    · rintro e he
      cases he
    · rintro new cache k h
      cases h
      rw [List.append_nil]
      exact ⟨shared.asked, rfl, .refl⟩
  | cons step steps ih =>
    intro scores shared
    rw [scoreStepsCached]
    rcases hkey : stepCacheKey py taskId step config.max_step_chars with e | key
    · exact .raised (.single (threadStep_keyError hkey))
    rw [ok_bind]
    rcases hentry : shared.cache.lookup key with _ | value
    · dsimp only
      have hlook : threadStep py judge config taskId (.running (step :: steps) scores none) shared =
        _ := threadStep_miss hkey hentry
      rcases hsamples : samples py judge
        (buildStepPrompt py taskId step (getRubric config.domain) config.max_step_chars)
        shared.asked.length (effectiveNSamples config) with e | drawn
      · obtain ⟨shared', hturns⟩ := (draws_reach _ [] shared (Nat.zero_add _)).1 e hsamples
        exact .raised (.head hlook hturns)
      · obtain ⟨asked, hasked, hdraws⟩ :=
          (draws_reach _ [] shared (Nat.zero_add _)).2 drawn hsamples
        have hwrite : threadStep py judge config taskId
            (.running (step :: steps) scores (some (key, drawn))) ⟨shared.cache, asked⟩ =
              _ := threadStep_write (samples_length hsamples).not_lt
        have hrest := ih (scores ++ [meanSample drawn])
          ⟨(key, meanSample drawn) :: shared.cache, asked⟩
        rw [hasked] at hrest
        exact .scored (.head hlook (hdraws.tail hwrite)) hrest
    · exact .scored (.single (threadStep_hit hkey hentry)) (ih (scores ++ [value]) shared)

/-! ### Progress -/

/-- The turns that a thread has left at most, `n` being the number of samples for a step. -/
def Thread.left (n : ℕ) : Thread → ℕ
  | .running [] _ _ => 0
  | .running (_ :: todo) _ none => todo.length * (n + 2) + (n + 2)
  | .running (_ :: todo) _ (some (_, drawn)) => todo.length * (n + 2) + (n - drawn.length) + 1
  | .raised _ => 0

theorem Thread.left_running_le (n : ℕ) (todo : List Step) (scores : List ℚ) :
    (Thread.running todo scores none).left n = todo.length * (n + 2) := by
  rcases todo with _ | ⟨step, todo⟩
  · rw [left, List.length_nil, Nat.zero_mul]
  · rw [left, List.length_cons, Nat.succ_mul]

theorem threadStep_left (py : Interp) (judge : Judge) (config : JudgeConfig) (taskId : PyStr)
    (thread : Thread) (shared : Shared) :
    (threadStep py judge config taskId thread shared).1.left (effectiveNSamples config) ≤
      thread.left (effectiveNSamples config) - 1 := by
  have hturn : Turned py judge config taskId shared thread _ := threadStep_turned thread shared
  generalize threadStep py judge config taskId thread shared = next at hturn ⊢
  cases hturn with
  | finished => exact Nat.zero_le _
  | stopped => exact Nat.zero_le _
  | keyError hkey => exact Nat.zero_le _
  | hit hkey hentry =>
    rw [Thread.left_running_le, Thread.left]
    omega
  | miss hkey hentry =>
    rw [Thread.left, Thread.left, List.length_nil]
    omega
  | askError hdrawn hs => exact Nat.zero_le _
  | ask hdrawn hs =>
    rw [Thread.left, Thread.left, List.length_append, List.length_singleton]
    omega
  | write hdrawn =>
    rw [Thread.left_running_le, Thread.left]
    omega

/-- A thread is done: it has scored all its steps or has raised. -/
theorem Thread.done_of_left {n : ℕ} {thread : Thread} (h : thread.left n = 0) :
    (∃ scores drawn, thread = .running [] scores drawn) ∨ ∃ e, thread = .raised e := by
  rcases thread with ⟨_ | ⟨step, todo⟩, scores, _ | drawn⟩ | e
  · exact .inl ⟨scores, none, rfl⟩
  · exact .inl ⟨scores, some drawn, rfl⟩
  · rw [Thread.left] at h
    omega
  · rw [Thread.left] at h
    omega
  · exact .inr ⟨e, rfl⟩

end Thread

/-! ### The calls, without a judge -/

section Planned

variable (py : Interp) (judge : Judge) (config : JudgeConfig) (batch : TrainBatch rows width)
  (gen : GenOutput rows)

/-- A judge that cannot be reached: every sample is `0`. -/
def unreachable : Judge := fun _ _ => .error ⟨.osError, []⟩

/-- The calls that a schedule makes. They are those made of a judge that cannot be reached. -/
def plannedCalls (schedule : List (Fin rows)) : List (ℕ × Prompt) :=
  (judgeAll py unreachable config batch gen schedule).2.asked

end Planned

section Lockstep

variable {py : Interp} {judge : Judge} {config : JudgeConfig} {taskId : PyStr} {steps : List Step}
  {thread thread' : Thread} {shared shared' : Shared}

/-- A thread that has not raised: the steps that it has left are the end of its steps, and the keys
of the others could be formed. -/
inductive Follows (py : Interp) (config : JudgeConfig) (taskId : PyStr) (steps : List Step) :
    Thread → Prop
  | looking {past todo : List Step} {scores : List ℚ} (h : steps = past ++ todo)
      (hscores : scores.length = past.length)
      (hpast : ∀ step ∈ past, encodable (stepCacheText py taskId step config.max_step_chars) = true) :
      Follows py config taskId steps (.running todo scores none)
  | drawing {past todo : List Step} {step : Step} {scores : List ℚ} {key : PyStr} {drawn : List ℚ}
      (h : steps = past ++ step :: todo) (hscores : scores.length = past.length)
      (hpast : ∀ step ∈ past, encodable (stepCacheText py taskId step config.max_step_chars) = true)
      (hstep : encodable (stepCacheText py taskId step config.max_step_chars) = true) :
      Follows py config taskId steps (.running (step :: todo) scores (some (key, drawn)))

/-- What decides the calls of a thread that has not raised. -/
def Thread.shape : Thread → Option (List Step × Option (PyStr × ℕ))
  | .running todo _ drawn => some (todo, drawn.map fun d => (d.1, d.2.length))
  | .raised _ => none

/-- The same of what the threads share. -/
def Shared.shape (shared : Shared) : List PyStr × List (ℕ × Prompt) :=
  (shared.cache.map Prod.fst, shared.asked)

theorem Follows.done {scores : List ℚ} {drawn : Option (PyStr × List ℚ)}
    (h : Follows py config taskId steps (.running [] scores drawn)) :
    scores.length = steps.length ∧
      ∀ step ∈ steps, encodable (stepCacheText py taskId step config.max_step_chars) = true := by
  obtain ⟨h, hscores, hpast⟩ := h
  rw [List.append_nil] at h
  subst h
  exact ⟨hscores, hpast⟩

theorem Thread.looking_of_shape {todo : List Step} (h : some (todo, none) = thread'.shape) :
    ∃ scores, thread' = .running todo scores none := by
  rcases thread' with ⟨todo', scores, _ | drawn⟩ | e
  · cases h
    exact ⟨scores, rfl⟩
  · cases h
  · cases h

theorem Thread.drawing_of_shape {todo : List Step} {key : PyStr} {n : ℕ}
    (h : some (todo, some (key, n)) = thread'.shape) :
    ∃ scores drawn, thread' = .running todo scores (some (key, drawn)) ∧ drawn.length = n := by
  rcases thread' with ⟨todo', scores, _ | ⟨key', drawn⟩⟩ | e
  · cases h
  · cases h
    exact ⟨scores, drawn, rfl, rfl⟩
  · cases h

/-- The cache has an entry or not, whatever the values are. -/
theorem Shared.lookup_of_shape (h : shared.shape = shared'.shape) (key : PyStr) :
    (∃ value, shared.cache.lookup key = some value) ↔
      ∃ value, shared'.cache.lookup key = some value := by
  rw [← mem_keys_iff, ← mem_keys_iff, (Prod.mk.inj h).1]

/-- The calls that were made stay made. -/
theorem threadStep_asked (py : Interp) (judge : Judge) (config : JudgeConfig) (taskId : PyStr)
    (thread : Thread) (shared : Shared) :
    ∀ call ∈ shared.asked, call ∈ (threadStep py judge config taskId thread shared).2.asked := by
  intro call hcall
  have hturn : Turned py judge config taskId shared thread _ := threadStep_turned thread shared
  generalize threadStep py judge config taskId thread shared = next at hturn ⊢
  cases hturn with
  | askError hdrawn hs => exact List.mem_append_left _ hcall
  | ask hdrawn hs => exact List.mem_append_left _ hcall
  | _ => exact hcall

/-- Why a thread raises: a call cannot be used, or a key cannot be formed. -/
def Spoilt (py : Interp) (judge : Judge) (config : JudgeConfig) (taskId : PyStr) (steps : List Step)
    (asked : List (ℕ × Prompt)) : Prop :=
  (∃ call ∈ asked, ¬Usable py judge call) ∨
    ∃ step ∈ steps, ¬encodable (stepCacheText py taskId step config.max_step_chars) = true

theorem Follows.scored {past todo : List Step} {step : Step} {scores : List ℚ} (value : ℚ)
    (h : steps = past ++ step :: todo) (hscores : scores.length = past.length)
    (hpast : ∀ step ∈ past, encodable (stepCacheText py taskId step config.max_step_chars) = true)
    (hstep : encodable (stepCacheText py taskId step config.max_step_chars) = true) :
    Follows py config taskId steps (.running todo (scores ++ [value]) none) := by
  refine .looking (h.trans (List.append_cons ..)) ?_ ?_
  · simp only [List.length_append, List.length_singleton, hscores]
  · exact List.forall_mem_append.mpr ⟨hpast, List.forall_mem_singleton.mpr hstep⟩

/-- **Lockstep.** One turn of a thread, beside the same turn with a judge that cannot be reached.
Both make the same call, unless the thread raises. -/
theorem threadStep_lockstep (hfollows : Follows py config taskId steps thread)
    (hthread : thread.shape = thread'.shape) (hshared : shared.shape = shared'.shape)
    (husable : ∀ call ∈ shared.asked, Usable py judge call) :
    let new := threadStep py judge config taskId thread shared
    let new' := threadStep py unreachable config taskId thread' shared'
    (Follows py config taskId steps new.1 ∧ new.1.shape = new'.1.shape ∧
        new.2.shape = new'.2.shape ∧ ∀ call ∈ new.2.asked, Usable py judge call) ∨
      (∃ e, new.1 = .raised e) ∧ Spoilt py judge config taskId steps new'.2.asked := by
  have hlookup := Shared.lookup_of_shape hshared
  obtain ⟨hkeys, hasked⟩ := Prod.mk.inj hshared
  have husable_iff : ∀ step, (∃ s, sample py judge (nextCall py config taskId step shared).2
      shared.asked.length = .ok s) ↔ Usable py judge (nextCall py config taskId step shared) :=
    fun step => sample_ok_iff ..
  have hcall : ∀ step, nextCall py config taskId step shared' =
      nextCall py config taskId step shared := by
    intro step
    rw [nextCall, ← hasked, nextCall]
  intro new new'
  have hturn : Turned py judge config taskId shared thread new := threadStep_turned thread shared
  clear_value new
  cases hturn with
  | finished =>
    cases hfollows with
    | looking h hscores hpast =>
      obtain ⟨scores', rfl⟩ := Thread.looking_of_shape hthread
      exact .inl ⟨.looking h hscores hpast, rfl, hshared, husable⟩
  | stopped => cases hfollows
  | @keyError step todo scores e hkey =>
    cases hfollows with
    | looking h hscores hpast =>
      refine .inr ⟨⟨e, rfl⟩, .inr ⟨step, ?_, fun hstep => ?_⟩⟩
      · rw [h]
        exact List.mem_append_right _ List.mem_cons_self
      · obtain ⟨key, hkey'⟩ := (stepCacheKey_ok_iff ..).mpr hstep
        cases hkey.symm.trans hkey'
  | @hit step todo scores key value hkey hentry =>
    cases hfollows with
    | looking h hscores hpast =>
      obtain ⟨scores', rfl⟩ := Thread.looking_of_shape hthread
      obtain ⟨value', hentry'⟩ := (hlookup key).mp ⟨value, hentry⟩
      rw [show new' = _ from threadStep_hit hkey hentry']
      have hstep := (stepCacheKey_ok_iff ..).mp ⟨key, hkey⟩
      exact .inl ⟨.scored value h hscores hpast hstep, rfl, hshared, husable⟩
  | @miss step todo scores key hkey hentry =>
    cases hfollows with
    | looking h hscores hpast =>
      obtain ⟨scores', rfl⟩ := Thread.looking_of_shape hthread
      have hentry' : shared'.cache.lookup key = none := by
        rw [← Option.not_isSome_iff_eq_none, Option.isSome_iff_exists, ← hlookup, hentry]
        exact nofun
      rw [show new' = _ from threadStep_miss hkey hentry']
      have hstep := (stepCacheKey_ok_iff ..).mp ⟨key, hkey⟩
      exact .inl ⟨.drawing h hscores hpast hstep, rfl, hshared, husable⟩
  | @askError step todo scores drawn key e hdrawn hs =>
    obtain ⟨scores', drawn', rfl, hlength⟩ := Thread.drawing_of_shape hthread
    rw [show new' = _ from threadStep_ask (hlength ▸ hdrawn) rfl, hcall]
    refine .inr ⟨⟨e, rfl⟩, .inl ⟨nextCall py config taskId step shared, ?_, fun husable' => ?_⟩⟩
    · exact List.mem_append_right _ (List.mem_singleton_self _)
    · obtain ⟨s, hs'⟩ := (husable_iff step).mpr husable'
      cases hs.symm.trans hs'
  | @ask step todo scores drawn key s hdrawn hs =>
    cases hfollows with
    | drawing h hscores hpast hstep =>
      obtain ⟨scores', drawn', rfl, hlength⟩ := Thread.drawing_of_shape hthread
      rw [show new' = _ from threadStep_ask (hlength ▸ hdrawn) rfl, hcall]
      refine .inl ⟨.drawing h hscores hpast hstep, ?_, ?_, ?_⟩
      · simp only [Thread.shape, Option.map_some, List.length_append, List.length_singleton, hlength]
      · simp only [Shared.shape, Shared.ask, hkeys, hasked]
      · exact List.forall_mem_append.mpr
          ⟨husable, List.forall_mem_singleton.mpr ((husable_iff step).mp ⟨s, hs⟩)⟩
  | @write step todo scores drawn key hdrawn =>
    cases hfollows with
    | drawing h hscores hpast hstep =>
      obtain ⟨scores', drawn', rfl, hlength⟩ := Thread.drawing_of_shape hthread
      rw [show new' = _ from threadStep_write (hlength ▸ hdrawn)]
      refine .inl ⟨.scored _ h hscores hpast hstep, rfl, ?_, husable⟩
      simp only [Shared.shape, List.map_cons, hkeys, hasked]

end Lockstep

/-! ### When no thread raises -/

section Completes

variable {py : Interp} {judge : Judge} {config : JudgeConfig} {batch : TrainBatch rows width}
  {gen : GenOutput rows} {schedule : List (Fin rows)}

/-- The threads beside the same threads with a judge that cannot be reached. -/
inductive Synced (py : Interp) (judge : Judge) (config : JudgeConfig) (taskId : Fin rows → PyStr)
    (steps : Fin rows → List Step) (c c' : Config (Fin rows) Shared Thread) : Prop
  | clean (hfollows : ∀ i, Follows py config (taskId i) (steps i) (c.1 i))
      (hthreads : ∀ i, (c.1 i).shape = (c'.1 i).shape) (hshared : c.2.shape = c'.2.shape)
      (husable : ∀ call ∈ c.2.asked, Usable py judge call)
  | spoilt {i j : Fin rows} {e : PyErr} (h : c.1 i = .raised e)
      (hwhy : Spoilt py judge config (taskId j) (steps j) c'.2.asked)

theorem synced_turn (taskId : Fin rows → PyStr) (steps : Fin rows → List Step)
    (c c' : Config (Fin rows) Shared Thread) (j : Fin rows)
    (h : Synced py judge config taskId steps c c') :
    Synced py judge config taskId steps
      (turn (fun i => threadStep py judge config (taskId i)) c j)
      (turn (fun i => threadStep py unreachable config (taskId i)) c' j) := by
  obtain ⟨hfollows, hthreads, hshared, husable⟩ | @⟨i, k, e, h, hwhy⟩ := h
  · obtain ⟨hfollows', hthread', hshared', husable'⟩ | ⟨⟨e, he⟩, hwhy⟩ :=
      threadStep_lockstep (hfollows j) (hthreads j) hshared husable
    · refine .clean (fun i => ?_) (fun i => ?_) hshared' husable'
      · by_cases hij : i = j
        · subst hij
          rw [turn_self]
          exact hfollows'
        · rw [turn_of_ne _ _ hij]
          exact hfollows i
      · by_cases hij : i = j
        · subst hij
          rw [turn_self, turn_self]
          exact hthread'
        · rw [turn_of_ne _ _ hij, turn_of_ne _ _ hij]
          exact hthreads i
    · exact .spoilt ((turn_self _ _ _).trans he) hwhy
  · have hraised : (turn (fun i => threadStep py judge config (taskId i)) c j).1 i = .raised e := by
      by_cases hij : i = j
      · subst hij
        rw [turn_self, h]
        rfl
      · rw [turn_of_ne _ _ hij, h]
    refine .spoilt hraised (hwhy.imp_left ?_)
    rintro ⟨call, hcall, hnot⟩
    exact ⟨call, threadStep_asked py unreachable config (taskId j) _ _ call hcall, hnot⟩

/-- After the whole schedule every thread is done. -/
theorem judgeAll_left (py : Interp) (judge : Judge) (config : JudgeConfig)
    (batch : TrainBatch rows width) (gen : GenOutput rows) (schedule : List (Fin rows))
    (i : Fin rows) :
    ((judgeAll py judge config batch gen schedule).1 i).left (effectiveNSamples config) = 0 := by
  let steps := toJudge py config batch gen
  have hcount : turnsOf config (steps i) ≤ (schedule ++ (List.finRange rows).flatMap
      fun i => List.replicate (turnsOf config (steps i)) i).count i := by
    have hsublist := (List.sublist_flatten_of_mem (List.mem_map_of_mem
      (f := fun i => List.replicate (turnsOf config (steps i)) i) (List.mem_finRange i))).count_le i
    rw [List.count_replicate_self] at hsublist
    rw [List.count_append]
    exact hsublist.trans (Nat.le_add_left _ _)
  have hleft := run_left (Thread.left (effectiveNSamples config))
    (fun i => threadStep_left py judge config (taskIdAt py batch gen i)) i
    (schedule ++ (List.finRange rows).flatMap fun i => List.replicate (turnsOf config (steps i)) i)
    (fun i => .running (steps i) [] none, ⟨[], []⟩)
  rw [Thread.left_running_le] at hleft
  exact Nat.le_zero.mp (hleft.trans (Nat.sub_eq_zero_of_le hcount).le)

/-- The pool completes: every call that the schedule makes can be used, and every key can be
formed. -/
structure PoolCompletes (py : Interp) (judge : Judge) (config : JudgeConfig)
    (batch : TrainBatch rows width) (gen : GenOutput rows) (schedule : List (Fin rows)) : Prop where
  calls : ∀ call ∈ plannedCalls py config batch gen schedule, Usable py judge call
  keys : ∀ i, ∀ step ∈ toJudge py config batch gen i,
    encodable (stepCacheText py (taskIdAt py batch gen i) step config.max_step_chars) = true

/-- Either every thread has scored its steps, or one has raised. -/
theorem judgeAll_cases (py : Interp) (judge : Judge) (config : JudgeConfig)
    (batch : TrainBatch rows width) (gen : GenOutput rows) (schedule : List (Fin rows)) :
    (PoolCompletes py judge config batch gen schedule ∧ ∀ i, ∃ scores drawn,
        (judgeAll py judge config batch gen schedule).1 i = .running [] scores drawn ∧
          scores.length = (toJudge py config batch gen i).length) ∨
      ¬PoolCompletes py judge config batch gen schedule ∧
        ∃ i e, (judgeAll py judge config batch gen schedule).1 i = .raised e := by
  have hsynced : Synced py judge config (taskIdAt py batch gen) (toJudge py config batch gen)
      (judgeAll py judge config batch gen schedule) (judgeAll py unreachable config batch gen schedule) :=
    run_simulation (synced_turn _ _) _ _ _
      (.clean (fun i => .looking (List.nil_append _).symm rfl nofun) (fun i => rfl) rfl nofun)
  obtain ⟨hfollows, -, hshared, husable⟩ | ⟨h, hwhy⟩ := hsynced
  · left
    have hdone : ∀ i, ∃ scores drawn,
        (judgeAll py judge config batch gen schedule).1 i = .running [] scores drawn ∧
          scores.length = (toJudge py config batch gen i).length ∧
          ∀ step ∈ toJudge py config batch gen i,
            encodable (stepCacheText py (taskIdAt py batch gen i) step config.max_step_chars) =
              true := by
      intro i
      have hi := hfollows i
      obtain ⟨scores, drawn, h⟩ | ⟨e, he⟩ :=
        Thread.done_of_left (judgeAll_left py judge config batch gen schedule i)
      · rw [h] at hi
        exact ⟨scores, drawn, h, hi.done⟩
      · rw [he] at hi
        cases hi
    refine ⟨⟨?_, fun i => ?_⟩, fun i => ?_⟩
    · rw [plannedCalls, ← (Prod.mk.inj hshared).2]
      exact husable
    · obtain ⟨-, -, -, -, hkeys⟩ := hdone i
      exact hkeys
    · obtain ⟨scores, drawn, h, hlength, -⟩ := hdone i
      exact ⟨scores, drawn, h, hlength⟩
  · right
    refine ⟨fun hcompletes => ?_, _, _, h⟩
    obtain ⟨call, hcall, hnot⟩ | ⟨step, hstep, hnot⟩ := hwhy
    · exact hnot (hcompletes.calls call hcall)
    · exact hnot (hcompletes.keys _ step hstep)

/-- **When no thread raises.** -/
theorem completes_iff (py : Interp) (judge : Judge) (config : JudgeConfig)
    (batch : TrainBatch rows width) (gen : GenOutput rows) (schedule : List (Fin rows)) :
    (List.finRange rows).findSome? (raisedBy py judge config batch gen schedule) = none ↔
      PoolCompletes py judge config batch gen schedule := by
  rw [List.findSome?_eq_none_iff]
  rcases judgeAll_cases py judge config batch gen schedule with
    ⟨hcompletes, hscored⟩ | ⟨hnot, i, e, he⟩
  · refine iff_of_true (fun i _ => ?_) hcompletes
    obtain ⟨scores, drawn, h, -⟩ := hscored i
    rw [raisedBy, h]
  · refine iff_of_false (fun h => ?_) hnot
    have hi := h i (List.mem_finRange i)
    rw [raisedBy, he] at hi
    cases hi

/-- A row is scored when it has steps to judge, and then every step has a score. -/
theorem scoresByTraj_of_completes (h : PoolCompletes py judge config batch gen schedule)
    (i : Fin rows) :
    (toJudge py config batch gen i = [] ∧ scoresByTraj py judge config batch gen schedule i = none) ∨
      toJudge py config batch gen i ≠ [] ∧
        ∃ scores, scoresByTraj py judge config batch gen schedule i = some scores ∧
          scores.length = (toJudge py config batch gen i).length := by
  obtain ⟨-, hscored⟩ | ⟨hnot, -⟩ := judgeAll_cases py judge config batch gen schedule
  · obtain ⟨scores, drawn, hthread, hlength⟩ := hscored i
    by_cases hempty : toJudge py config batch gen i = []
    · exact .inl ⟨hempty, if_pos (List.isEmpty_iff.mpr hempty)⟩
    · refine .inr ⟨hempty, scores, ?_, hlength⟩
      rw [scoresByTraj, if_neg (List.isEmpty_iff.not.mpr hempty), hthread]
  · exact absurd h hnot

end Completes

/-! ### The rewards -/

section Rewards

variable {py : Interp} {judge : Judge} {config : JudgeConfig} {batch : TrainBatch rows width}
  {gen : GenOutput rows} {schedule : List (Fin rows)}

/-- What is promised of a row, of the scores of its steps. -/
structure RowIsolated (alpha : ℚ) (steps : List Step) (scores : Option (List ℚ))
    (before after : Fin width → ℚ) : Prop where
  success : 1 ≤ total before → after = before
  scored : total before < 1 → ∀ s, scores = some s → s.length = steps.length ∧
    total after = alpha * ((s.map fun x => max 0 (min 1 x)).sum / s.length)
  unscored : total before < 1 → scores = none → after = before

/-- The reward of a failed row is where the new one is written. -/
def RewardAt (batch : TrainBatch rows width) (gen : GenOutput rows) (i : Fin rows) : Prop :=
  ∃ p, writePosition (responseMask batch gen) i (batch.rm_scores i) = .ok p ∧
    batch.rm_scores i p = total (batch.rm_scores i)

theorem total_update (row : Fin width → ℚ) (p : Fin width) (v : ℚ) :
    total (Function.update row p v) = total row - row p + v := by
  rw [total, Finset.sum_update_of_mem (Finset.mem_univ p), total,
    ← Finset.add_sum_erase Finset.univ row (Finset.mem_univ p), Finset.sdiff_singleton_eq_erase]
  ring

theorem blendReward_of_failed {outcome alpha : ℚ} {scores : List ℚ} (h : outcome < 1)
    (hscores : scores ≠ []) :
    blendReward outcome scores alpha =
      alpha * ((scores.map fun x => max 0 (min 1 x)).sum / scores.length) := by
  rw [blendReward, if_neg (not_le.mpr h), if_neg (List.isEmpty_iff.not.mpr hscores)]
  dsimp only
  rw [List.length_map]

/-- One round of the third pass. -/
theorem writeRow_sweep (scores : Fin rows → Option (List ℚ)) :
    Sweep (writeRow config batch gen scores) (fun rm i => rm i) fun i before after =>
      (1 ≤ outcome batch i → after = before) ∧
      (outcome batch i < 1 → ∃ p, writePosition (responseMask batch gen) i before = .ok p ∧
        after = Function.update before p (denseReward config (outcome batch i) (scores i))) := by
  suffices h : ∀ {rm i rm'}, writeRow config batch gen scores rm i = .ok rm' →
      (∀ j, j ≠ i → rm' j = rm j) ∧ (1 ≤ outcome batch i → rm' i = rm i) ∧
      (outcome batch i < 1 → ∃ p, writePosition (responseMask batch gen) i (rm i) = .ok p ∧
        rm' i = Function.update (rm i) p (denseReward config (outcome batch i) (scores i))) from
    ⟨fun hs => (h hs).1, fun hs => (h hs).2⟩
  intro rm i rm' h
  rw [writeRow] at h
  split at h
  · next hsuccess =>
    obtain rfl := Except.ok.inj h
    exact ⟨fun _ _ => rfl, fun _ => rfl, fun hlt => absurd hsuccess (not_le.mpr hlt)⟩
  · next hfailed =>
    obtain ⟨p, hp, h⟩ := bind_eq_ok.mp h
    obtain rfl := Except.ok.inj h
    exact ⟨fun j hj => Function.update_of_ne hj _ _, fun hsuccess => absurd hsuccess hfailed,
      fun _ => ⟨p, hp, Function.update_self _ _ _⟩⟩

theorem writeRow_ok_iff (scores : Fin rows → Option (List ℚ)) (rm : Tensor rows width ℚ)
    (i : Fin rows) :
    (∃ rm', writeRow config batch gen scores rm i = .ok rm') ↔
      (outcome batch i < 1 → ∃ p, writePosition (responseMask batch gen) i (rm i) = .ok p) := by
  rw [writeRow]
  split
  · next hsuccess => exact iff_of_true ⟨rm, rfl⟩ fun hlt => absurd hsuccess (not_le.mpr hlt)
  · next hfailed =>
    rcases hp : writePosition (responseMask batch gen) i (rm i) with e | p
    · refine iff_of_false ?_ fun h => ?_
      · rintro ⟨rm', hrm⟩
        cases hrm
      · obtain ⟨p, hp⟩ := h (not_le.mp hfailed)
        cases hp
    · exact iff_of_true ⟨_, rfl⟩ fun _ => ⟨p, rfl⟩

/-- A failed row keeps its promise exactly when its reward is where the new one is written. -/
theorem rowIsolated_iff {steps : List Step} {scores : Option (List ℚ)} {row : Fin width → ℚ}
    {p : Fin width} (hfailed : total row < 1)
    (hscores : ∀ s, scores = some s → steps ≠ [] ∧ s.length = steps.length) :
    RowIsolated config.alpha steps scores row
        (Function.update row p (denseReward config (total row) scores)) ↔ row p = total row := by
  rcases scores with _ | s
  · constructor
    · intro h
      have hrow := congrFun (h.unscored hfailed rfl) p
      rw [Function.update_self] at hrow
      exact hrow.symm
    · refine fun hp => ⟨fun h => absurd h (not_le.mpr hfailed), nofun, fun _ _ => ?_⟩
      rw [denseReward, ← hp, Function.update_eq_self]
  · obtain ⟨hsteps, hlength⟩ := hscores s rfl
    have hs : s ≠ [] := by
      rintro rfl
      exact hsteps (List.length_eq_zero_iff.mp hlength.symm)
    have htotal := total_update row p (denseReward config (total row) (some s))
    rw [denseReward, blendReward_of_failed hfailed hs] at htotal
    rw [denseReward, blendReward_of_failed hfailed hs]
    constructor
    · intro h
      have hnew := (h.scored hfailed s rfl).2
      rw [htotal] at hnew
      linarith
    · refine fun hp => ⟨fun h => absurd h (not_le.mpr hfailed), fun _ s' hs' => ?_, nofun⟩
      obtain rfl := Option.some.inj hs'
      refine ⟨hlength, ?_⟩
      rw [htotal, hp]
      ring

/-- **When the rows are isolated**: the pool completes, and the reward of every failed row is where
the new one is written. -/
theorem densifyRewards_isolated_iff (py : Interp) (judge : Judge) (config : JudgeConfig)
    (batch : TrainBatch rows width) (gen : GenOutput rows) (schedule : List (Fin rows)) :
    (∃ rm metrics, densifyRewards py judge config batch gen schedule = .ok (rm, metrics) ∧
      ∀ i, RowIsolated config.alpha (toJudge py config batch gen i)
        (scoresByTraj py judge config batch gen schedule i) (batch.rm_scores i) (rm i)) ↔
    PoolCompletes py judge config batch gen schedule ∧
      ∀ i, total (batch.rm_scores i) < 1 → RewardAt batch gen i := by
  let scores := scoresByTraj py judge config batch gen schedule
  by_cases hpool : PoolCompletes py judge config batch gen schedule
  · have hrun : densifyRewards py judge config batch gen schedule =
        ((List.finRange rows).foldlM (writeRow config batch gen scores) batch.rm_scores).map
          fun rm => (rm, metrics py config batch gen scores) := by
      rw [densifyRewards, (completes_iff ..).mpr hpool]
      show (_ >>= _) = _
      rcases (List.finRange rows).foldlM (writeRow config batch gen scores)
        batch.rm_scores with e | rm
      · rfl
      · rfl
    have hscores : ∀ i s, scores i = some s → toJudge py config batch gen i ≠ [] ∧
        s.length = (toJudge py config batch gen i).length := by
      intro i s hs
      obtain ⟨-, hnone⟩ | ⟨hsteps, s', hs', hlength⟩ := scoresByTraj_of_completes hpool i
      · exact nomatch hs.symm.trans hnone
      · obtain rfl := Option.some.inj (hs.symm.trans hs')
        exact ⟨hsteps, hlength⟩
    have hsweep : Sweep (writeRow config batch gen scores) (fun rm i => rm i) _ :=
      writeRow_sweep scores
    have hcompletes := hsweep.run_ok_iff (P := fun i row => outcome batch i < 1 → ∃ p,
      writePosition (responseMask batch gen) i row = .ok p) (writeRow_ok_iff scores)
      (List.nodup_finRange rows) batch.rm_scores
    rw [hrun]
    constructor
    · rintro ⟨rm, metrics, h, hrows⟩
      obtain ⟨rm', hfold, heq⟩ := map_eq_ok.mp h
      obtain ⟨rfl, -⟩ := Prod.mk.inj heq
      refine ⟨hpool, fun i hfailed => ?_⟩
      have hi := hrows i
      obtain ⟨p, hp, hrow⟩ :=
        ((hsweep.run (List.nodup_finRange rows) hfold i).1 (List.mem_finRange i)).2 hfailed
      rw [hrow] at hi
      exact ⟨p, hp, (rowIsolated_iff hfailed (hscores i)).mp hi⟩
    · rintro ⟨-, hreward⟩
      obtain ⟨rm, hfold⟩ := hcompletes.mpr fun i _ hfailed => by
        obtain ⟨p, hp, -⟩ := hreward i hfailed
        exact ⟨p, hp⟩
      refine ⟨rm, metrics py config batch gen scores, by rw [hfold]; rfl, fun i => ?_⟩
      obtain ⟨hsuccess, hfailure⟩ :=
        (hsweep.run (List.nodup_finRange rows) hfold i).1 (List.mem_finRange i)
      by_cases hfailed : total (batch.rm_scores i) < 1
      · obtain ⟨p, hp, hat⟩ := hreward i hfailed
        obtain ⟨p', hp', hrow⟩ := hfailure hfailed
        obtain rfl := Except.ok.inj (hp.symm.trans hp')
        rw [hrow]
        exact (rowIsolated_iff hfailed (hscores i)).mpr hat
      · exact ⟨hsuccess, fun h => absurd h hfailed, fun h => absurd h hfailed⟩
  · refine iff_of_false ?_ fun h => hpool h.1
    rintro ⟨rm, metrics, h, -⟩
    rw [densifyRewards] at h
    rcases hraised : (List.finRange rows).findSome? (raisedBy py judge config batch gen schedule) with
      - | e
    · exact hpool ((completes_iff ..).mp hraised)
    · rw [hraised] at h
      cases h

/-! ### Two batches of one row -/

/-- One row with this reward. -/
def sampleBatch (row : Fin 2 → ℚ) : TrainBatch 1 2 := ⟨![row], none, none⟩

/-- The whole row is of the response. -/
def sampleGen (messages : Option (List PyVal)) : GenOutput 1 :=
  ⟨some ⟨2, ![![1, 1]]⟩, messages.map fun m => [.list m], none, none⟩

def sampleMessages : List PyVal :=
  [.dict [("role", .str "assistant"), ("content", .str "All booked.")]]

/-- A judge that answers with a JSON list makes the whole call raise. A row that is not judged at
all is changed when its reward is not at the last position of the mask. -/
theorem densifyRewards_not_isolated :
    densifyRewards .silent (fun _ _ => .ok "[]") {} (sampleBatch ![0, 0])
        (sampleGen (some sampleMessages)) [] =
      .error ⟨.attributeError, "'list' object has no attribute 'get'"⟩ ∧
    ∃ rm metrics, densifyRewards .silent (fun _ _ => .ok "[]") {} (sampleBatch ![1 / 2, 0])
        (sampleGen none) [] = .ok (rm, metrics) ∧
      scoresByTraj .silent (fun _ _ => .ok "[]") {} (sampleBatch ![1 / 2, 0])
        (sampleGen none) [] 0 =
        none ∧
      total ((sampleBatch ![1 / 2, 0]).rm_scores 0) = 1 / 2 ∧ total (rm 0) = 1 := by
  have hraises : densifyRewards .silent (fun _ _ => .ok "[]") {} (sampleBatch ![0, 0])
      (sampleGen (some sampleMessages)) [] =
    .error ⟨.attributeError, "'list' object has no attribute 'get'"⟩ := by decide +kernel
  have hmoves : (densifyRewards .silent (fun _ _ => .ok "[]") {} (sampleBatch ![1 / 2, 0])
      (sampleGen none) []).map (fun r => total (r.1 0)) = .ok 1 := by decide +kernel
  have hunscored : scoresByTraj .silent (fun _ _ => .ok "[]") {} (sampleBatch ![1 / 2, 0])
      (sampleGen none) [] 0 = none := by decide +kernel
  obtain ⟨⟨rm, metrics⟩, hrun, htotal⟩ := map_eq_ok.mp hmoves
  exact ⟨hraises, rm, metrics, hrun, hunscored, by decide +kernel, htotal⟩

end Rewards

end DensifyRewards

end ToolAgent
