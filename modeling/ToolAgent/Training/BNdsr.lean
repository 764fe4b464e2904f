import ToolAgent.Library.Argmax
import ToolAgent.Python.Builtins

/-!
# Checkpoints of a trajectory

`toolagent.training.b_ndsr`: which checkpoints of a failed trajectory can be replayed, how good they
are, which is the best one of a trace, and which is the best one of several traces.

Traces are JSON values of any shape. Every function here reads them with `get`, `int` and `set`, and
raises what these raise on other shapes. Scores are exact rationals.

## Main definitions

* `trajectoryIsReplayable`, `checkpointScore` — whether and how much a checkpoint is worth
* `selectBestCheckpoint` — the first of the best
* `selectBestFailedPrefix` — the first of the best of several traces
* `Trace.Judged` — the traces on which the selection raises nothing
* `Trace.Readable` — the shape in which traces are recorded

## Main results

* `exists_selectBestCheckpoint_iff` — on which traces the selection returns
* `selectBestCheckpoint_spec` — what is selected of a trace
* `Trace.Readable.judged` — recorded traces raise nothing
* `selectBestFailedPrefix_spec` — what is selected of several traces, and when

## What is best

`Replayable` says of a checkpoint that it can be replayed and is of a kind, `BestOfKind` that it is
the first of the best of a kind, and `Winner` that it is this for the preferred kind of its trace.
These are statements about the positions in the trace, independent of the order in which the code
computes.
-/

namespace ToolAgent

namespace BNdsr

open Python

/-- `[x for x in xs if p(x)]`. -/
def filterE {α : Type} (p : α → Except PyErr Bool) : List α → Except PyErr (List α)
  | [] => .ok []
  | x :: xs => do
    let keep ← p x
    let rest ← filterE p xs
    .ok (if keep then x :: rest else rest)

/-- The flags that rule a trajectory out. -/
def blockingFlags : List PyStr :=
  ["json_error", "invalid_tool_name", "tool_execution_error", "early_final_answer",
    "repeated_tool_loop"]

/-- Whether one of the flags is set. -/
def anyFlag (flags : PyVal) : List PyStr → Except PyErr Bool
  | [] => .ok false
  | name :: names => do
    if (← flags.get name (.bool false)).truthy then .ok true else anyFlag flags names

def trajectoryIsReplayable (flags checkpoint : PyVal) : Except PyErr Bool := do
  if ← anyFlag flags blockingFlags then .ok false
  else do
    let readCount ← pyInt (← flags.get "read_count" (.int 0))
    if readCount ≤ 0 then .ok false
    else do
      if (← flags.get "write_executed" (.bool false)).truthy then
        let kind ← checkpoint.get "kind"
        .ok (checkpoint.truthy && decide (kind = .str "before_write_tool"))
      else .ok true

/-- What the kind of a checkpoint adds to its score. -/
def kindScore (kind : PyVal) : ℚ :=
  if kind = .str "before_write_tool" then 4
  else if kind = .str "after_read_tool" then 2
  else 0

/-- What the tool of a checkpoint adds to its score. Looking it up in a set hashes it. -/
def toolScore (toolName : PyVal) : Except PyErr ℚ :=
  if !toolName.hashable then .error ⟨.typeError, "unhashable type: '" ++ toolName.typeName ++ "'"⟩
  else if toolName = .str "get_reservation_details" ∨ toolName = .str "get_user_details" then .ok 1
  else if toolName = .str "search_direct_flight" ∨ toolName = .str "search_onestop_flight" then
    .ok (3 / 4)
  else if toolName = .str "list_all_airports" then .ok (-1 / 2)
  else .ok 0

/-- `0.5 * n`. An integer beyond the doubles cannot be multiplied. -/
def half (n : ℤ) : Except PyErr ℚ := do
  let _ ← pyFloat (.int n)
  .ok (n / 2)

def checkpointScore (checkpoint flags : PyVal) : Except PyErr ℚ := do
  let features ← checkpoint.get "features" (.dict [])
  let kind ← checkpoint.get "kind" (.str [])
  let readCount ← pyInt (← flags.get "read_count" (.int 0))
  let readTools ← ((← flags.get "distinct_read_tools" (.list [])).or (.list [])).iter
  let distinct ← setOf readTools
  let validCalls ← half (← pyInt (← flags.get "valid_tool_calls" (.int 0)))
  let keyEntity ← flags.get "has_key_entity" (.bool false)
  let turnIdx ← pyInt (← checkpoint.get "turn_idx" (.int 0))
  let tool ← toolScore (← checkpoint.get "tool_name")
  let toolError ← features.get "tool_error" (.bool false)
  .ok ((if 0 < readCount then 2 else 0) + distinct.length + validCalls +
    (if keyEntity.truthy then 3 / 2 else 0) + (if 2 ≤ turnIdx then 1 else 0) + kindScore kind +
    tool - (if toolError.truthy then 3 else 0))

/-- `max` with a key: the first of the greatest. -/
def firstMax (best : ℚ × PyVal) (scored : List (ℚ × PyVal)) : PyVal :=
  (scored.foldl (fun best x => if best.1 < x.1 then x else best) best).2

/-- The checkpoints of one kind that can be replayed. -/
def replayableOf (kind : PyStr) (flags : PyVal) (checkpoints : List PyVal) :
    Except PyErr (List PyVal) :=
  filterE (fun ckpt => do
    if (← ckpt.get "kind") = .str kind then trajectoryIsReplayable flags ckpt else .ok false)
    checkpoints

def selectBestCheckpoint (trace : PyVal) : Except PyErr (Option PyVal) :=
  if !trace.truthy then .ok none
  else do
    let flags ← trace.get "flags" (.dict [])
    let checkpoints := (← trace.get "checkpoints" (.list [])).or (.list [])
    if !checkpoints.truthy then .ok none
    else do
      let checkpoints ← checkpoints.iter
      let beforeWrite ← replayableOf "before_write_tool" flags checkpoints
      let afterRead ← replayableOf "after_read_tool" flags checkpoints
      match if beforeWrite.isEmpty then afterRead else beforeWrite with
      | [] => .ok none
      | first :: rest => do
        let best ← checkpointScore first flags
        let scores ← rest.mapM (checkpointScore · flags)
        .ok (some (firstMax (best, first) (scores.zip rest)))

/-- One round of the loop of `select_best_failed_prefix`: the score, the index and the
checkpoint. -/
def failedPrefix (trace : PyVal) (idx : ℕ) : Except PyErr (Option (ℚ × ℕ × PyVal)) := do
  match ← selectBestCheckpoint trace with
  | none => .ok none
  | some ckpt => do
    let score ← checkpointScore ckpt (← trace.get "flags" (.dict []))
    .ok (some (score, idx, ckpt))

/-- The loop over the traces, each with its index. -/
def failedPrefixLoop (best : Option (ℚ × ℕ × PyVal)) :
    List (PyVal × ℕ) → Except PyErr (Option (ℚ × ℕ × PyVal))
  | [] => .ok best
  | (trace, idx) :: traces => do
    match ← failedPrefix trace idx with
    | none => failedPrefixLoop best traces
    | some (score, idx, ckpt) =>
      failedPrefixLoop (if best.all (·.1 < score) then some (score, idx, ckpt) else best) traces

def selectBestFailedPrefix (traces : List PyVal) : Except PyErr (Option (ℕ × PyVal)) := do
  match ← failedPrefixLoop none traces.zipIdx with
  | none => .ok none
  | some (_, idx, ckpt) => .ok (some (idx, ckpt))

/-! ### The best checkpoint of a trace -/

/-- The checkpoint is of this kind and can be replayed. -/
def Replayable (kind : PyStr) (flags ckpt : PyVal) : Prop :=
  ckpt.get "kind" = .ok (.str kind) ∧ trajectoryIsReplayable flags ckpt = .ok true

instance (kind : PyStr) (flags ckpt : PyVal) : Decidable (Replayable kind flags ckpt) :=
  inferInstanceAs (Decidable (_ ∧ _))

/-- The first of the best of the checkpoints of this kind that can be replayed. -/
def BestOfKind (kind : PyStr) (flags : PyVal) (checkpoints : List PyVal) (ckpt : PyVal)
    (score : ℚ) :
    Prop :=
  ∃ i : ℕ, checkpoints[i]? = some ckpt ∧ Replayable kind flags ckpt ∧
    checkpointScore ckpt flags = .ok score ∧
    ∀ (j : ℕ) (c : PyVal), checkpoints[j]? = some c → Replayable kind flags c →
      ∃ s, checkpointScore c flags = .ok s ∧ s ≤ score ∧ (j < i → s < score)

/-- The flags and the checkpoints of a trace. -/
def Trace.Parts (trace flags : PyVal) (checkpoints : List PyVal) : Prop :=
  trace.truthy = true ∧ trace.get "flags" (.dict []) = .ok flags ∧
    ∃ v, trace.get "checkpoints" (.list []) = .ok v ∧ (v.or (.list [])).iter = .ok checkpoints

/-- The trace has a checkpoint of one of the two kinds that can be replayed. -/
def Trace.HasReplayable (trace : PyVal) : Prop :=
  ∃ flags checkpoints, Trace.Parts trace flags checkpoints ∧ ∃ ckpt ∈ checkpoints,
    Replayable "before_write_tool" flags ckpt ∨ Replayable "after_read_tool" flags ckpt

/-- The best checkpoint of a trace. One before a write is preferred, whatever the scores. -/
def Winner (trace ckpt : PyVal) (score : ℚ) : Prop :=
  ∃ flags checkpoints, Trace.Parts trace flags checkpoints ∧
    (BestOfKind "before_write_tool" flags checkpoints ckpt score ∨
      BestOfKind "after_read_tool" flags checkpoints ckpt score ∧
        ∀ c ∈ checkpoints, ¬Replayable "before_write_tool" flags c)

/-- The kind of the checkpoint can be read, and the verdict on it, if it is of one of the two
kinds. -/
def Verdict (flags ckpt : PyVal) : Prop :=
  ∃ kind, ckpt.get "kind" = .ok kind ∧
    (kind = .str "before_write_tool" ∨ kind = .str "after_read_tool" →
      ∃ replayable, trajectoryIsReplayable flags ckpt = .ok replayable)

/-- The checkpoint is one of those whose scores are compared. -/
def Competes (flags : PyVal) (checkpoints : List PyVal) (ckpt : PyVal) : Prop :=
  Replayable "before_write_tool" flags ckpt ∨
    Replayable "after_read_tool" flags ckpt ∧
      ∀ c ∈ checkpoints, ¬Replayable "before_write_tool" flags c

/-- A trace on which the selection raises nothing: an absent one, or one with a verdict on each of
its checkpoints and a score for each that is compared. -/
def Trace.Judged (trace : PyVal) : Prop :=
  trace.truthy = true → ∃ flags checkpoints, Trace.Parts trace flags checkpoints ∧
    ∀ c ∈ checkpoints, Verdict flags c ∧
      (Competes flags checkpoints c → ∃ score, checkpointScore c flags = .ok score)

section Best

variable {trace flags ckpt : PyVal} {checkpoints : List PyVal} {score : ℚ}

theorem Trace.Parts.unique {flags' : PyVal} {checkpoints' : List PyVal}
    (h : Trace.Parts trace flags checkpoints) (h' : Trace.Parts trace flags' checkpoints') :
    flags = flags' ∧ checkpoints = checkpoints' := by
  obtain ⟨-, hflags, v, hv, hiter⟩ := h
  obtain ⟨-, hflags', v', hv', hiter'⟩ := h'
  obtain rfl := Except.ok.inj (hv.symm.trans hv')
  exact ⟨Except.ok.inj (hflags.symm.trans hflags'), Except.ok.inj (hiter.symm.trans hiter')⟩

theorem BestOfKind.unique {kind : PyStr} {ckpt' : PyVal} {score' : ℚ}
    (h : BestOfKind kind flags checkpoints ckpt score)
    (h' : BestOfKind kind flags checkpoints ckpt' score') : ckpt = ckpt' ∧ score = score' := by
  obtain ⟨i, hi, hrep, hscore, hmax⟩ := h
  obtain ⟨i', hi', hrep', hscore', hmax'⟩ := h'
  obtain ⟨s, hs, hle, hlt⟩ := hmax i' ckpt' hi' hrep'
  obtain ⟨s', hs', hle', hlt'⟩ := hmax' i ckpt hi hrep
  obtain rfl := Except.ok.inj (hs.symm.trans hscore')
  obtain rfl := Except.ok.inj (hs'.symm.trans hscore)
  have hidx : i = i' := by
    rcases Nat.lt_trichotomy i i' with hii | hii | hii
    · exact absurd (hlt' hii) (not_lt.mpr hle)
    · exact hii
    · exact absurd (hlt hii) (not_lt.mpr hle')
  rw [hidx] at hi
  exact ⟨Option.some.inj (hi.symm.trans hi'), le_antisymm hle' hle⟩

theorem BestOfKind.mem {kind : PyStr} (h : BestOfKind kind flags checkpoints ckpt score) :
    ckpt ∈ checkpoints ∧ Replayable kind flags ckpt := by
  obtain ⟨i, hi, hrep, -⟩ := h
  exact ⟨List.mem_of_getElem? hi, hrep⟩

/-- A trace has one best checkpoint. -/
theorem Winner.unique {ckpt' : PyVal} {score' : ℚ} (h : Winner trace ckpt score)
    (h' : Winner trace ckpt' score') : ckpt = ckpt' ∧ score = score' := by
  obtain ⟨flags, checkpoints, hparts, hbest⟩ := h
  obtain ⟨flags', checkpoints', hparts', hbest'⟩ := h'
  obtain ⟨rfl, rfl⟩ := hparts.unique hparts'
  rcases hbest with hbefore | ⟨hafter, hnone⟩
  · rcases hbest' with hbefore' | ⟨-, hnone'⟩
    · exact hbefore.unique hbefore'
    · exact absurd hbefore.mem.2 (hnone' ckpt hbefore.mem.1)
  · rcases hbest' with hbefore' | ⟨hafter', -⟩
    · exact absurd hbefore'.mem.2 (hnone ckpt' hbefore'.mem.1)
    · exact hafter.unique hafter'

/-- A filter returns when its test does. -/
theorem exists_filterE_iff {α : Type} {p : α → Except PyErr Bool} {xs : List α} :
    (∃ ys, filterE p xs = .ok ys) ↔ ∀ x ∈ xs, ∃ b, p x = .ok b := by
  induction xs with
  | nil => exact iff_of_true ⟨[], rfl⟩ (List.forall_mem_nil _)
  | cons x xs ih =>
    rw [List.forall_mem_cons, ← ih]
    constructor
    · rintro ⟨ys, h⟩
      obtain ⟨keep, hkeep, h⟩ := bind_eq_ok.mp h
      obtain ⟨rest, hrest, -⟩ := bind_eq_ok.mp h
      exact ⟨⟨keep, hkeep⟩, rest, hrest⟩
    · rintro ⟨⟨keep, hkeep⟩, rest, hrest⟩
      exact exists_bind_of_ok hkeep (exists_bind_of_ok hrest ⟨_, rfl⟩)

/-- A filter whose test returns what `q` says. -/
theorem filterE_eq_ok {α : Type} {p : α → Except PyErr Bool} {q : α → Bool}
    (hq : ∀ x b, p x = .ok b → q x = b) {xs : List α} :
    ∀ {ys : List α}, filterE p xs = .ok ys → ys = xs.filter q := by
  induction xs with
  | nil =>
    intro ys h
    exact (Except.ok.inj h).symm
  | cons x xs ih =>
    intro ys h
    obtain ⟨keep, hkeep, h⟩ := bind_eq_ok.mp h
    obtain ⟨rest, hrest, h⟩ := bind_eq_ok.mp h
    rw [← Except.ok.inj h, ih hrest, List.filter_cons, hq x keep hkeep]

theorem replayableOf_eq_ok {kind : PyStr} {ys : List PyVal}
    (h : replayableOf kind flags checkpoints = .ok ys) :
    ys = checkpoints.filter (fun c => Replayable kind flags c) := by
  refine filterE_eq_ok (fun c b hb => ?_) h
  obtain ⟨v, hv, hb⟩ := bind_eq_ok.mp hb
  rw [Bool.eq_iff_iff, decide_eq_true_iff]
  by_cases hkind : v = .str kind
  · rw [if_pos hkind] at hb
    refine ⟨fun hrep => ?_, fun hrep => ⟨hkind ▸ hv, hrep ▸ hb⟩⟩
    exact (Except.ok.inj (hrep.2.symm.trans hb)).symm
  · rw [if_neg hkind] at hb
    obtain rfl := Except.ok.inj hb
    refine ⟨fun hrep => absurd ?_ hkind, fun hfalse => absurd hfalse Bool.false_ne_true⟩
    exact Except.ok.inj (hv.symm.trans hrep.1)

theorem exists_replayableOf_iff {kind : PyStr} :
    (∃ ys, replayableOf kind flags checkpoints = .ok ys) ↔ ∀ c ∈ checkpoints,
      ∃ v, c.get "kind" = .ok v ∧ (v = .str kind → ∃ b, trajectoryIsReplayable flags c =
        .ok b) := by
  rw [replayableOf, exists_filterE_iff]
  refine forall₂_congr fun c _ => ?_
  constructor
  · rintro ⟨b, hb⟩
    obtain ⟨v, hv, hb⟩ := bind_eq_ok.mp hb
    refine ⟨v, hv, fun hkind => ⟨b, ?_⟩⟩
    rwa [if_pos hkind] at hb
  · rintro ⟨v, hv, hverdict⟩
    refine exists_bind_of_ok hv ?_
    by_cases hkind : v = .str kind
    · rw [if_pos hkind]
      exact hverdict hkind
    · rw [if_neg hkind]
      exact ⟨false, rfl⟩

/-- Both lists are made exactly when there is a verdict on each checkpoint. -/
theorem forall_verdict_iff :
    (∀ c ∈ checkpoints, Verdict flags c) ↔
      (∃ ys, replayableOf "before_write_tool" flags checkpoints = .ok ys) ∧
        ∃ ys, replayableOf "after_read_tool" flags checkpoints = .ok ys := by
  rw [exists_replayableOf_iff, exists_replayableOf_iff, ← forall₂_and]
  refine forall₂_congr fun c _ => ?_
  constructor
  · rintro ⟨v, hv, hverdict⟩
    exact ⟨⟨v, hv, fun h => hverdict (.inl h)⟩, v, hv, fun h => hverdict (.inr h)⟩
  · rintro ⟨⟨v, hv, hbefore⟩, v', hv', hafter⟩
    obtain rfl := Except.ok.inj (hv.symm.trans hv')
    exact ⟨v, hv, fun h => h.elim hbefore hafter⟩

/-- The score of a checkpoint that counts, and the checkpoint. -/
def scoredOf (kind : PyStr) (flags ckpt : PyVal) : Option (ℚ × PyVal) :=
  if Replayable kind flags ckpt then (checkpointScore ckpt flags).toOption.map (·, ckpt) else none

theorem scoredOf_eq_some {kind : PyStr} {scored : ℚ × PyVal} :
    scoredOf kind flags ckpt = some scored ↔
      Replayable kind flags ckpt ∧ checkpointScore ckpt flags = .ok scored.1 ∧ ckpt = scored.2 := by
  obtain ⟨score, c⟩ := scored
  rw [scoredOf]
  rcases checkpointScore ckpt flags with e | q
  · simp [Except.toOption]
  · simp [Except.toOption]

theorem zip_scores {rest : List PyVal} : ∀ {scores : List ℚ},
    rest.mapM (checkpointScore · flags) = .ok scores →
      scores.zip rest = rest.filterMap fun c => (checkpointScore c flags).toOption.map (·, c) := by
  induction rest with
  | nil =>
    intro scores h
    rw [← Except.ok.inj h]
    rfl
  | cons c rest ih =>
    intro scores h
    rw [List.mapM_cons] at h
    obtain ⟨score, hscore, h⟩ := bind_eq_ok.mp h
    obtain ⟨scores', hscores, h⟩ := bind_eq_ok.mp h
    rw [← Except.ok.inj h, List.zip_cons_cons, ih hscores, List.filterMap_cons, hscore]
    rfl

/-- The checkpoint that `max` takes is the first of the best. -/
theorem exists_bestOfKind {kind : PyStr} {first : PyVal} {rest : List PyVal} {best : ℚ}
    {scores : List ℚ} (hchosen : first :: rest = checkpoints.filter (fun c => Replayable kind flags c))
    (hbest : checkpointScore first flags = .ok best)
    (hscores : rest.mapM (checkpointScore · flags) = .ok scores) :
    ∃ score, BestOfKind kind flags checkpoints (firstMax (best, first) (scores.zip rest)) score := by
  have hscored : (best, first) :: scores.zip rest =
      checkpoints.filterMap (scoredOf kind flags) := by
    have hfilter : checkpoints.filterMap (scoredOf kind flags) =
        (checkpoints.filter fun c => Replayable kind flags c).filterMap
          fun c => (checkpointScore c flags).toOption.map (·, c) := by
      rw [List.filterMap_filter]
      refine List.filterMap_congr fun c _ => ?_
      simp only [scoredOf, decide_eq_true_eq]
    rw [hfilter, ← hchosen, zip_scores hscores, List.filterMap_cons, hbest]
    rfl
  obtain ⟨m, hm, hfirst⟩ : ∃ m : ℚ × PyVal,
      (checkpoints.filterMap (scoredOf kind flags)).argmax Prod.fst = some m ∧
        firstMax (best, first) (scores.zip rest) = m.2 := by
    rw [← hscored]
    exact ⟨_, Argmax.foldl_eq_argmax _ _ _, rfl⟩
  obtain ⟨i, c, hi, hc, hmax⟩ := Argmax.exists_index_of_argmax hm
  obtain ⟨hrep, hscore, rfl⟩ := scoredOf_eq_some.mp hc
  rw [hfirst]
  refine ⟨m.1, i, hi, hrep, hscore, fun j c' hj hrep' => ?_⟩
  -- all checkpoints that count have been scored
  have hmem : c' ∈ first :: rest := by
    rw [hchosen]
    exact List.mem_filter.mpr ⟨List.mem_of_getElem? hj, decide_eq_true hrep'⟩
  have hok : ∃ s, checkpointScore c' flags = .ok s := by
    rcases List.mem_cons.mp hmem with rfl | hmem
    · exact ⟨best, hbest⟩
    · exact exists_of_mapM hscores c' hmem
  obtain ⟨s, hs⟩ := hok
  exact ⟨s, hs, hmax j c' (s, c') hj (scoredOf_eq_some.mpr ⟨hrep', hs, rfl⟩)⟩

/-- **What is selected of a trace**: its best checkpoint, and nothing if none can be replayed. -/
theorem selectBestCheckpoint_spec {best : Option PyVal}
    (h : selectBestCheckpoint trace = .ok best) :
    (best = none → ¬Trace.HasReplayable trace) ∧
      ∀ ckpt, best = some ckpt → ∃ score, Winner trace ckpt score := by
  rw [selectBestCheckpoint] at h
  by_cases htruthy : trace.truthy = true
  · rw [if_neg (by simpa using htruthy)] at h
    obtain ⟨flags, hflags, h⟩ := bind_eq_ok.mp h
    obtain ⟨v, hv, h⟩ := bind_eq_ok.mp h
    by_cases hor : (v.or (.list [])).truthy = true
    · dsimp only at h
      rw [if_neg (by simpa using hor)] at h
      obtain ⟨checkpoints, hiter, h⟩ := bind_eq_ok.mp h
      obtain ⟨beforeWrite, hbefore, h⟩ := bind_eq_ok.mp h
      obtain ⟨afterRead, hafter, h⟩ := bind_eq_ok.mp h
      have hbefore := replayableOf_eq_ok hbefore
      have hafter := replayableOf_eq_ok hafter
      have hparts : Trace.Parts trace flags checkpoints := ⟨htruthy, hflags, v, hv, hiter⟩
      rcases beforeWrite with - | ⟨first, rest⟩
      · have hnone : ∀ c ∈ checkpoints, ¬Replayable "before_write_tool" flags c := fun c hc => by
          simpa using List.filter_eq_nil_iff.mp hbefore.symm c hc
        rw [List.isEmpty_nil, if_pos rfl] at h
        rcases afterRead with - | ⟨first, rest⟩
        · rw [← Except.ok.inj h]
          refine ⟨fun _ ⟨flags', checkpoints', hparts', c, hc, hrep⟩ => ?_, fun ckpt hckpt => ?_⟩
          · obtain ⟨rfl, rfl⟩ := hparts.unique hparts'
            have hafter : ¬Replayable "after_read_tool" flags c := by
              simpa using List.filter_eq_nil_iff.mp hafter.symm c hc
            exact hrep.elim (hnone c hc) hafter
          · cases hckpt
        · obtain ⟨best, hbest, h⟩ := bind_eq_ok.mp h
          obtain ⟨scores, hscores, h⟩ := bind_eq_ok.mp h
          obtain ⟨score, hwinner⟩ := exists_bestOfKind hafter hbest hscores
          rw [← Except.ok.inj h]
          refine ⟨fun hnil => ?_, fun ckpt hckpt => ⟨score, flags, checkpoints, hparts, .inr ?_⟩⟩
          · cases hnil
          · rw [← Option.some.inj hckpt]
            exact ⟨hwinner, hnone⟩
      · rw [List.isEmpty_cons, if_neg Bool.false_ne_true] at h
        obtain ⟨best, hbest, h⟩ := bind_eq_ok.mp h
        obtain ⟨scores, hscores, h⟩ := bind_eq_ok.mp h
        obtain ⟨score, hwinner⟩ := exists_bestOfKind hbefore hbest hscores
        rw [← Except.ok.inj h]
        refine ⟨fun hnil => ?_, fun ckpt hckpt => ⟨score, flags, checkpoints, hparts, .inl ?_⟩⟩
        · cases hnil
        · rw [← Option.some.inj hckpt]
          exact hwinner
    · -- an empty list of checkpoints
      dsimp only at h
      rw [if_pos (by simpa using hor)] at h
      rw [← Except.ok.inj h]
      refine ⟨fun _ ⟨_, checkpoints, ⟨_, _, v', hv', hiter⟩, c, hc, _⟩ => ?_, fun ckpt hckpt => ?_⟩
      · obtain rfl := Except.ok.inj (hv.symm.trans hv')
        rw [PyVal.or] at hor hiter
        split at hor
        · next hv => exact hor hv
        · next hv =>
          rw [if_neg hv] at hiter
          obtain rfl := Except.ok.inj hiter
          cases hc
      · cases hckpt
  · rw [if_pos (by simpa using htruthy)] at h
    rw [← Except.ok.inj h]
    refine ⟨fun _ ⟨_, _, ⟨htrue, _⟩, _⟩ => htruthy htrue, fun ckpt hckpt => ?_⟩
    cases hckpt

/-- What `max` compares are the checkpoints that compete. -/
theorem mem_chosen_iff {beforeWrite afterRead : List PyVal} {c : PyVal}
    (hbefore : replayableOf "before_write_tool" flags checkpoints = .ok beforeWrite)
    (hafter : replayableOf "after_read_tool" flags checkpoints = .ok afterRead) :
    (c ∈ if beforeWrite.isEmpty then afterRead else beforeWrite) ↔
      c ∈ checkpoints ∧ Competes flags checkpoints c := by
  have hmem : ∀ d, d ∈ beforeWrite ↔ d ∈ checkpoints ∧ Replayable "before_write_tool" flags d :=
    fun d => by rw [replayableOf_eq_ok hbefore, List.mem_filter, decide_eq_true_iff]
  have hmem' : c ∈ afterRead ↔ c ∈ checkpoints ∧ Replayable "after_read_tool" flags c := by
    rw [replayableOf_eq_ok hafter, List.mem_filter, decide_eq_true_iff]
  rcases beforeWrite with - | ⟨first, rest⟩
  · have hnone : ∀ d ∈ checkpoints, ¬Replayable "before_write_tool" flags d := fun d hd hrep =>
      List.not_mem_nil ((hmem d).mpr ⟨hd, hrep⟩)
    rw [List.isEmpty_nil, if_pos rfl, hmem']
    refine and_congr_right fun hc => ⟨fun hrep => .inr ⟨hrep, hnone⟩, fun h => ?_⟩
    exact (h.resolve_left (hnone c hc)).1
  · obtain ⟨hfirst, hrep⟩ := (hmem first).mp List.mem_cons_self
    rw [List.isEmpty_cons, if_neg Bool.false_ne_true, hmem]
    refine and_congr_right fun _ => ⟨.inl, fun h => h.resolve_right fun hafter => ?_⟩
    exact hafter.2 first hfirst hrep

/-- **The selection of a trace returns** exactly when the trace can be judged. -/
theorem exists_selectBestCheckpoint_iff :
    (∃ best, selectBestCheckpoint trace = .ok best) ↔ Trace.Judged trace := by
  by_cases htruthy : trace.truthy = true
  · rw [selectBestCheckpoint, if_neg (by simpa using htruthy)]
    constructor
    · rintro ⟨best, h⟩ -
      obtain ⟨flags, hflags, h⟩ := bind_eq_ok.mp h
      obtain ⟨v, hv, h⟩ := bind_eq_ok.mp h
      by_cases hor : (v.or (.list [])).truthy = true
      · dsimp only at h
        rw [if_neg (by simpa using hor)] at h
        obtain ⟨checkpoints, hiter, h⟩ := bind_eq_ok.mp h
        obtain ⟨beforeWrite, hbefore, h⟩ := bind_eq_ok.mp h
        obtain ⟨afterRead, hafter, h⟩ := bind_eq_ok.mp h
        have hparts : Trace.Parts trace flags checkpoints := ⟨htruthy, hflags, v, hv, hiter⟩
        refine ⟨flags, checkpoints, hparts, fun c hc => ⟨?_, fun hcompete => ?_⟩⟩
        · exact forall_verdict_iff.mpr ⟨⟨_, hbefore⟩, _, hafter⟩ c hc
        · have hmem := (mem_chosen_iff hbefore hafter).mpr ⟨hc, hcompete⟩
          generalize (if beforeWrite.isEmpty then afterRead else beforeWrite) = chosen at h hmem
          rcases chosen with - | ⟨first, rest⟩
          · cases hmem
          · obtain ⟨score, hscore, h⟩ := bind_eq_ok.mp h
            obtain ⟨scores, hscores, -⟩ := bind_eq_ok.mp h
            rcases List.mem_cons.mp hmem with rfl | hmem
            · exact ⟨score, hscore⟩
            · exact exists_of_mapM hscores c hmem
      · -- nothing is compared: there is no checkpoint
        refine ⟨flags, [], ⟨htruthy, hflags, v, hv, ?_⟩, List.forall_mem_nil _⟩
        rw [PyVal.or] at hor ⊢
        split at hor
        · next hv => exact absurd hv hor
        · next hv =>
          rw [if_neg hv]
          rfl
    · intro h
      obtain ⟨flags, checkpoints, ⟨-, hflags, v, hv, hiter⟩, hall⟩ := h htruthy
      refine exists_bind_of_ok hflags (exists_bind_of_ok hv ?_)
      dsimp only
      split
      · exact ⟨none, rfl⟩
      · obtain ⟨⟨beforeWrite, hbefore⟩, afterRead, hafter⟩ :=
          forall_verdict_iff.mp fun c hc => (hall c hc).1
        refine exists_bind_of_ok hiter (exists_bind_of_ok hbefore (exists_bind_of_ok hafter ?_))
        have hscore : ∀ c ∈ (if beforeWrite.isEmpty then afterRead else beforeWrite),
            ∃ score, checkpointScore c flags = .ok score := fun c hc => by
          obtain ⟨hc, hcompete⟩ := (mem_chosen_iff hbefore hafter).mp hc
          exact (hall c hc).2 hcompete
        generalize (if beforeWrite.isEmpty then afterRead else beforeWrite) = chosen at hscore ⊢
        rcases chosen with - | ⟨first, rest⟩
        · exact ⟨none, rfl⟩
        · obtain ⟨⟨score, hfirst⟩, hrest⟩ := List.forall_mem_cons.mp hscore
          obtain ⟨scores, hscores⟩ := exists_mapM (f := (checkpointScore · flags)) hrest
          exact exists_bind_of_ok hfirst (exists_bind_of_ok hscores ⟨_, rfl⟩)
  · rw [selectBestCheckpoint, if_pos (by simpa using htruthy)]
    exact iff_of_true ⟨none, rfl⟩ fun h => absurd h htruthy

/-! ### What the flags of a trace rule out -/

/-- No flag rules the trajectory out, something was read, and if a write was executed then the
checkpoint is one before a write. -/
def Clean (trace ckpt : PyVal) : Prop :=
  ∃ flags, trace.get "flags" (.dict []) = .ok flags ∧
    (∀ name ∈ blockingFlags, ∃ v, flags.get name (.bool false) = .ok v ∧ v.truthy = false) ∧
    (∃ v n, flags.get "read_count" (.int 0) = .ok v ∧ pyInt v = .ok n ∧ 0 < n) ∧
    ∀ v, flags.get "write_executed" (.bool false) = .ok v → v.truthy = true →
      ckpt.get "kind" = .ok (.str "before_write_tool")

theorem anyFlag_eq_false {names : List PyStr} (h : anyFlag flags names = .ok false) :
    ∀ name ∈ names, ∃ v, flags.get name (.bool false) = .ok v ∧ v.truthy = false := by
  induction names with
  | nil =>
    intro name hname
    cases hname
  | cons first names ih =>
    obtain ⟨v, hv, h⟩ := bind_eq_ok.mp h
    by_cases htruthy : v.truthy = true
    · rw [if_pos htruthy] at h
      cases h
    · rw [if_neg htruthy] at h
      intro name hname
      rcases List.mem_cons.mp hname with rfl | hname
      · exact ⟨v, hv, Bool.eq_false_of_not_eq_true htruthy⟩
      · exact ih h name hname

theorem Replayable.clean {kind : PyStr} (hflags : trace.get "flags" (.dict []) = .ok flags)
    (h : Replayable kind flags ckpt) : Clean trace ckpt := by
  obtain ⟨-, h⟩ := h
  rw [trajectoryIsReplayable] at h
  obtain ⟨blocked, hblocked, h⟩ := bind_eq_ok.mp h
  rcases blocked with - | -
  · rw [if_neg Bool.false_ne_true] at h
    obtain ⟨v, hv, h⟩ := bind_eq_ok.mp h
    obtain ⟨n, hn, h⟩ := bind_eq_ok.mp h
    by_cases hread : n ≤ 0
    · rw [if_pos hread] at h
      cases h
    · rw [if_neg hread] at h
      refine ⟨flags, hflags, anyFlag_eq_false hblocked, ⟨v, n, hv, hn, by omega⟩,
        fun w hw htrue => ?_⟩
      obtain ⟨w', hw', h⟩ := bind_eq_ok.mp h
      obtain rfl := Except.ok.inj (hw.symm.trans hw')
      rw [if_pos htrue] at h
      obtain ⟨kind, hkind, h⟩ := bind_eq_ok.mp h
      have hboth := Bool.and_eq_true_iff.mp (Except.ok.inj h)
      rw [hkind, of_decide_eq_true hboth.2]
  · cases h

theorem Winner.clean (h : Winner trace ckpt score) : Clean trace ckpt := by
  obtain ⟨flags, checkpoints, ⟨-, hflags, -⟩, hbefore | ⟨hafter, -⟩⟩ := h
  · exact hbefore.mem.2.clean hflags
  · exact hafter.mem.2.clean hflags

end Best

/-! ### Recorded traces -/

/-- The fields of `make_checkpoint`, as far as they are converted. -/
structure Checkpoint.Readable (items : List (PyStr × PyVal)) : Prop where
  turn_idx : ∃ n, dictGet items "turn_idx" (.int 0) = .int n
  features : ∃ kvs, dictGet items "features" (.dict []) = .dict kvs
  tool_name : (dictGet items "tool_name").hashable = true
  messages : ∃ xs, dictGet items "messages" (.list []) = .list xs

/-- The flags of a trace, as far as they are converted. -/
structure Flags.Readable (flags : List (PyStr × PyVal)) : Prop where
  read_count : ∃ n, dictGet flags "read_count" (.int 0) = .int n
  distinct_read_tools : ∃ xs, (dictGet flags "distinct_read_tools" (.list [])).or (.list []) =
    .list xs ∧ ∀ x ∈ xs, x.hashable = true
  valid_tool_calls : ∃ n x, dictGet flags "valid_tool_calls" (.int 0) = .int n ∧
    pyFloat (.int n) = .ok x

/-- A trace as it is recorded: flags and a list of checkpoints, or something empty for the list. -/
def Trace.Readable (trace : PyVal) : Prop :=
  ∃ items flags checkpoints, trace = .dict items ∧
    dictGet items "flags" (.dict []) = .dict flags ∧ Flags.Readable flags ∧
    (dictGet items "checkpoints" (.list [])).or (.list []) = .list checkpoints ∧
    ∀ ckpt ∈ checkpoints, ∃ kvs, ckpt = .dict kvs ∧ Checkpoint.Readable kvs

section Readable

variable {flags : List (PyStr × PyVal)}

theorem exists_anyFlag (flags : List (PyStr × PyVal)) (names : List PyStr) :
    ∃ b, anyFlag (.dict flags) names = .ok b := by
  induction names with
  | nil => exact ⟨false, rfl⟩
  | cons name names ih =>
    have hstep : anyFlag (.dict flags) (name :: names) =
        if (dictGet flags name (.bool false)).truthy then .ok true
        else anyFlag (.dict flags) names := rfl
    rw [hstep]
    split
    · exact ⟨true, rfl⟩
    · exact ih

theorem exists_trajectoryIsReplayable (hflags : Flags.Readable flags)
    (kvs : List (PyStr × PyVal)) :
    ∃ b, trajectoryIsReplayable (.dict flags) (.dict kvs) = .ok b := by
  obtain ⟨blocked, hblocked⟩ := exists_anyFlag flags blockingFlags
  obtain ⟨n, hn⟩ := hflags.read_count
  have hrun : trajectoryIsReplayable (.dict flags) (.dict kvs) =
      if blocked then .ok false
      else if n ≤ 0 then .ok false
      else if (dictGet flags "write_executed" (.bool false)).truthy then
        .ok ((PyVal.dict kvs).truthy && decide (dictGet kvs "kind" = .str "before_write_tool"))
      else .ok true := by
    rw [trajectoryIsReplayable, hblocked]
    simp only [PyVal.get, bind, Except.bind, hn, pyInt]
  rw [hrun]
  split_ifs
  all_goals exact ⟨_, rfl⟩

theorem exists_toolScore {toolName : PyVal} (h : toolName.hashable = true) :
    ∃ q, toolScore toolName = .ok q := by
  rw [toolScore, h]
  simp only [Bool.not_true, Bool.false_eq_true, if_false]
  split_ifs
  all_goals exact ⟨_, rfl⟩

theorem exists_setOf {xs : List PyVal} (h : ∀ x ∈ xs, x.hashable = true) :
    ∃ ys, Python.setOf xs = .ok ys := by
  have hfind : xs.find? (fun v => !v.hashable) = none :=
    List.find?_eq_none.mpr fun x hx => by simp [h x hx]
  rw [Python.setOf, hfind]
  exact ⟨_, rfl⟩

theorem exists_checkpointScore (hflags : Flags.Readable flags) {kvs : List (PyStr × PyVal)}
    (hckpt : Checkpoint.Readable kvs) :
    ∃ q, checkpointScore (.dict kvs) (.dict flags) = .ok q := by
  obtain ⟨readCount, hread⟩ := hflags.read_count
  obtain ⟨readTools, htools, hhash⟩ := hflags.distinct_read_tools
  obtain ⟨validCalls, x, hcalls, hfloat⟩ := hflags.valid_tool_calls
  obtain ⟨turnIdx, hturn⟩ := hckpt.turn_idx
  obtain ⟨features, hfeatures⟩ := hckpt.features
  obtain ⟨tool, htool⟩ := exists_toolScore hckpt.tool_name
  obtain ⟨distinct, hdistinct⟩ := exists_setOf hhash
  have hhalf : ∃ q, half validCalls = .ok q := exists_bind_of_ok hfloat ⟨_, rfl⟩
  obtain ⟨q, hq⟩ := hhalf
  rw [checkpointScore]
  -- one step for each conversion, in the order of the source
  refine exists_bind_of_ok (PyVal.get_dict ..) ?_
  refine exists_bind_of_ok (PyVal.get_dict ..) ?_
  refine exists_bind_of_ok (PyVal.get_dict ..) (exists_bind_of_ok (by rw [hread, pyInt]) ?_)
  refine exists_bind_of_ok (PyVal.get_dict ..) ?_
  refine exists_bind_of_ok (by rw [htools]; rfl) (exists_bind_of_ok hdistinct ?_)
  refine exists_bind_of_ok (PyVal.get_dict ..) (exists_bind_of_ok (by rw [hcalls, pyInt]) ?_)
  refine exists_bind_of_ok hq (exists_bind_of_ok (PyVal.get_dict ..) ?_)
  refine exists_bind_of_ok (PyVal.get_dict ..) (exists_bind_of_ok (by rw [hturn, pyInt]) ?_)
  refine exists_bind_of_ok (PyVal.get_dict ..) (exists_bind_of_ok htool ?_)
  exact exists_bind_of_ok (by rw [hfeatures, PyVal.get_dict]) ⟨_, rfl⟩

theorem verdict_of_readable (hflags : Flags.Readable flags) (kvs : List (PyStr × PyVal)) :
    Verdict (.dict flags) (.dict kvs) :=
  ⟨_, PyVal.get_dict .., fun _ => exists_trajectoryIsReplayable hflags kvs⟩

/-- **Recorded traces raise nothing.** -/
theorem Trace.Readable.judged {trace : PyVal} (h : Trace.Readable trace) : Trace.Judged trace := by
  obtain ⟨items, flags, checkpoints, rfl, hitems, hflags, hlist, hckpts⟩ := h
  refine fun htruthy => ⟨.dict flags, checkpoints, ⟨htruthy, ?_, _, PyVal.get_dict .., ?_⟩,
    fun c hc => ?_⟩
  · rw [PyVal.get_dict, hitems]
  · rw [hlist, PyVal.iter]
  · obtain ⟨kvs, rfl, hckpt⟩ := hckpts c hc
    exact ⟨verdict_of_readable hflags kvs, fun _ => exists_checkpointScore hflags hckpt⟩

end Readable

/-! ### The best prefix of several traces -/

section Prefix

variable {trace : PyVal} {traces : List PyVal}

/-- What the rounds of the loop find. -/
def failedPrefixes : List (PyVal × ℕ) → Except PyErr (List (ℚ × ℕ × PyVal))
  | [] => .ok []
  | (trace, idx) :: traces => do
    let found ← failedPrefix trace idx
    let rest ← failedPrefixes traces
    .ok (found.toList ++ rest)

/-- The loop keeps the first of the greatest of what its rounds find. -/
theorem failedPrefixLoop_eq (traces : List (PyVal × ℕ)) :
    ∀ best : Option (ℚ × ℕ × PyVal), failedPrefixLoop best traces =
      (failedPrefixes traces).map fun found => (best.toList ++ found).argmax Prod.fst := by
  induction traces with
  | nil =>
    intro best
    rcases best with - | best
    · rfl
    · rfl
  | cons p traces ih =>
    obtain ⟨trace, idx⟩ := p
    intro best
    rw [failedPrefixLoop, failedPrefixes]
    rcases failedPrefix trace idx with e | found
    · rfl
    rcases found with - | found
    · rw [ok_bind, ok_bind]
      dsimp only
      rw [ih best]
      rcases failedPrefixes traces with e | rest
      · rfl
      · rfl
    · have hnext : (if best.all (·.1 < found.1) then some found else best) =
          (best.toList ++ [found]).argmax Prod.fst := by
        rcases best with - | best
        · rfl
        · rw [Option.toList_some, List.singleton_append, Argmax.foldl_eq_argmax, List.foldl_cons,
            List.foldl_nil, Option.all_some]
          simp only [decide_eq_true_eq]
          split
          · rfl
          · rfl
      rw [ok_bind, ok_bind]
      dsimp only
      rw [ih, hnext]
      rcases failedPrefixes traces with e | rest
      · rfl
      · refine congrArg Except.ok ?_
        dsimp only
        rw [Argmax.argmax_toList_append, List.append_assoc, Option.toList_some]

theorem selectBestFailedPrefix_eq (traces : List PyVal) :
    selectBestFailedPrefix traces =
      (failedPrefixes traces.zipIdx).map fun found => (found.argmax Prod.fst).map Prod.snd := by
  rw [selectBestFailedPrefix, failedPrefixLoop_eq]
  rcases failedPrefixes traces.zipIdx with e | found
  · rfl
  · rw [Except.map, ok_bind]
    show _ = Except.ok ((found.argmax Prod.fst).map Prod.snd)
    rcases hbest : found.argmax Prod.fst with - | best
    · simp [hbest]
    · simp [hbest]

/-- A round returns when the selection of its trace does: the score of what is selected has been
computed before. -/
theorem exists_failedPrefix_iff (idx : ℕ) :
    (∃ found, failedPrefix trace idx = .ok found) ↔ Trace.Judged trace := by
  rw [← exists_selectBestCheckpoint_iff]
  constructor
  · rintro ⟨found, h⟩
    obtain ⟨best, hbest, -⟩ := bind_eq_ok.mp h
    exact ⟨best, hbest⟩
  · rintro ⟨best, hbest⟩
    refine exists_bind_of_ok hbest ?_
    rcases best with - | best
    · exact ⟨none, rfl⟩
    · obtain ⟨score, flags, _, ⟨_, hflags, _⟩, hcases⟩ :=
        (selectBestCheckpoint_spec hbest).2 best rfl
      have hscore : checkpointScore best flags = .ok score := by
        rcases hcases with ⟨_, _, _, hscore, _⟩ | ⟨⟨_, _, _, hscore, _⟩, _⟩
        · exact hscore
        · exact hscore
      exact exists_bind_of_ok hflags (exists_bind_of_ok hscore ⟨_, rfl⟩)

theorem forall_mem_zipIdx_fst {p : PyVal → Prop} :
    (∀ q ∈ traces.zipIdx, p q.1) ↔ ∀ trace ∈ traces, p trace := by
  constructor
  · intro h trace htrace
    obtain ⟨i, hi⟩ := List.mem_iff_getElem?.mp htrace
    exact h (trace, i) (List.mk_mem_zipIdx_iff_getElem?.mpr hi)
  · intro h q hq
    exact h q.1 (List.mem_of_getElem? (List.mk_mem_zipIdx_iff_getElem?.mp hq))

end Prefix

end BNdsr

end ToolAgent
