import ToolAgent.Training.BNdsr
import ToolAgent.Training.LlmJudge

/-!
# Judge-assisted checkpoint selection

`toolagent.training.jass`: the best checkpoints of several traces are ranked by a heuristic, the top
ones are shown to a judge, and the judge's answer selects one. Where the judge fails the heuristic
decides.

## What the `except` clause misses

The judge's answer is converted inside a `try` that names `URLError`, `TimeoutError`, `ValueError`,
`KeyError` and `JSONDecodeError`. Three kinds of exception that a conversion can raise are none of
these: `AttributeError`, when the answer is not an object; `TypeError`, when a value is `null` or a
container; `OverflowError`, when it is an infinity or an integer beyond the doubles.

## Main definitions

* `buildCandidates` — the candidates, in the order and with the numbers the judge sees
* `selectCheckpoint` — the selection
* `Shown` — the traces that can be ranked and shown
* `Legal` — what a selection owes
* `Handled` — the texts that a selection can be made from

## Main results

* `buildCandidates_spec` — candidates are numbered by position and come from their traces
* `exists_buildCandidates_iff` — which traces can be ranked, the recorded ones among them
* `heuristicSelection_refines` — the heuristic selects what the plain selection does
* `selectCheckpoint_legal_iff` — when there is a legal selection
-/

namespace ToolAgent

namespace Jass

open Python BNdsr

/-- The fields of `JASSConfig` that the pure logic reads. -/
structure JASSConfig where
  model : PyStr := "Qwen/Qwen2.5-72B-Instruct-AWQ"
  max_candidates : ℤ := 3
  max_message_chars : ℤ := 800
  max_recent_messages : ℤ := 8

def SAMPLING_MODES : List PyStr := ["normal", "explore", "conservative"]

/-! ### Candidates -/

/-- What the judge is shown of a candidate. -/
structure JudgePayload where
  candidate_id : ℕ
  checkpoint_kind : PyVal
  tool_name : PyVal
  turn_idx : PyVal
  heuristic_score : ℚ
  flags : PyVal
  features : PyVal
  /-- Role and content. -/
  recent_messages : List (PyStr × PyStr)

structure Candidate where
  candidate_id : ℕ
  trace_idx : ℕ
  checkpoint : PyVal
  heuristic_score : ℚ
  judge_payload : JudgePayload

def truncate (py : Interp) (value : PyVal) (maxChars : ℤ) : PyStr :=
  LlmJudge.truncate (match value with | .str text => text | v => py.dumps v) maxChars

/-- `messages[-k:]`, as a list. The characters of a string are no messages. -/
def lastMessages (messages : PyVal) (k : ℤ) : Except PyErr (List PyVal) :=
  match messages with
  | .list xs => .ok (sliceFrom xs (-k))
  | .str _ => .ok []
  | v => .error ⟨.typeError, "'" ++ v.typeName ++ "' object is not subscriptable"⟩

def recentMessages (py : Interp) (messages : PyVal) (config : JASSConfig) :
    Except PyErr (List (PyStr × PyStr)) :=
  (lastMessages messages config.max_recent_messages).map fun recent =>
    recent.filterMap fun
      | .dict items => some (py.str (dictGet items "role" (.str [])),
          truncate py (dictGet items "content" (.str [])) config.max_message_chars)
      | _ => none

/-- `round(score, 3)`. -/
def round3 (score : ℚ) : ℚ := roundHalfEven (score * 1000) / 1000

/-- One round of the loop of `build_candidates`. -/
def candidateOf (py : Interp) (config : JASSConfig) (candidateId traceIdx : ℕ) (trace : PyVal) :
    Except PyErr (Option Candidate) :=
  if !trace.truthy then .ok none
  else do
    match ← selectBestCheckpoint trace with
    | none => .ok none
    | some checkpoint => do
      let flags ← trace.get "flags" (.dict [])
      let score ← checkpointScore checkpoint flags
      let kind ← checkpoint.get "kind"
      let toolName ← checkpoint.get "tool_name"
      let turnIdx ← checkpoint.get "turn_idx"
      let features ← checkpoint.get "features" (.dict [])
      let recent ← recentMessages py (← checkpoint.get "messages" (.list [])) config
      .ok (some ⟨candidateId, traceIdx, checkpoint, score,
        ⟨candidateId, kind, toolName, turnIdx, round3 score, flags, features, recent⟩⟩)

/-- The loop over the traces, each with its index. -/
def collectCandidates (py : Interp) (config : JASSConfig) (candidates : List Candidate) :
    List (PyVal × ℕ) → Except PyErr (List Candidate)
  | [] => .ok candidates
  | (trace, traceIdx) :: traces => do
    let candidate ← candidateOf py config candidates.length traceIdx trace
    collectCandidates py config (candidates ++ candidate.toList) traces

/-- Give a candidate its number. -/
def Candidate.renumber (candidate : Candidate) (newId : ℕ) : Candidate :=
  { candidate with
    candidate_id := newId
    judge_payload := { candidate.judge_payload with candidate_id := newId } }

/-- The end of `build_candidates`: a stable sort by falling score, the cut, and new numbers. -/
def rankCandidates (config : JASSConfig) (candidates : List Candidate) : List Candidate :=
  let sorted := candidates.mergeSort fun a b => decide (b.heuristic_score ≤ a.heuristic_score)
  (sliceTo sorted config.max_candidates).zipIdx.map fun p => p.1.renumber p.2

def buildCandidates (py : Interp) (config : JASSConfig) (traces : List PyVal) :
    Except PyErr (List Candidate) := do
  let candidates ← collectCandidates py config [] traces.zipIdx
  .ok (rankCandidates config candidates)

/-! ### The judge's answer -/

/-- The system message and the user message for the judge. -/
abbrev Prompt := LlmJudge.Prompt

def JudgePayload.toVal (payload : JudgePayload) : PyVal :=
  .dict
    [("candidate_id", .int payload.candidate_id), ("checkpoint_kind", payload.checkpoint_kind),
      ("tool_name", payload.tool_name), ("turn_idx", payload.turn_idx),
      ("heuristic_score", .float (.fin payload.heuristic_score)), ("flags", payload.flags),
      ("features", payload.features),
      ("recent_messages", .list (payload.recent_messages.map fun m =>
        .dict [("role", .str m.1), ("content", .str m.2)]))]

def judgeMessages (py : Interp) (candidates : List Candidate) : Prompt where
  system := "You are JASS, a checkpoint selector for tau-bench airline rollouts. " ++
    "You are not a reward model and must not assign success labels. " ++
    "Choose the checkpoint most worth suffix replay under limited rollout budget. " ++
    "Prefer clean prefixes with useful read/search information, no format/tool errors, " ++
    "and states right before a risky write when the prefix looks well-grounded. " ++
    "Return only JSON with keys: selected_candidate, sampling_mode, confidence, reason. " ++
    "sampling_mode must be one of normal, explore, conservative."
  user := py.dumps (.dict
    [("task", .str ("Select one candidate checkpoint for suffix replay. " ++
        "The final training signal will still be tau-bench 0/1 only.")),
      ("candidates", .list (candidates.map fun c => c.judge_payload.toVal))])

/-- The text itself, or else what stands between its outermost braces. -/
def extractJsonObject (py : Interp) (text : PyStr) : Except PyErr PyVal :=
  match loads py.recursionLimit text with
  | .ok v => .ok v
  | .error e =>
    if e.caughtBy [.jsonDecodeError] then
      match braceSpan text with
      | none => throw .valueError "judge response did not contain a JSON object"
      | some span => loads py.recursionLimit span
    else .error e

structure Decision where
  used_judge : Bool
  fallback : Bool
  selected_candidate : ℤ
  sampling_mode : PyStr
  confidence : PyFloat
  reason : PyStr
  candidate_count : ℕ
  model : Option PyStr
  error : Option PyStr := none

/-- The index of a trace, its checkpoint and the decision. -/
structure Selection where
  trace_idx : ℕ
  checkpoint : PyVal
  decision : Decision

/-- `heuristic_selection`, from the candidates. -/
def heuristicDecision (candidateCount : ℕ) : Decision :=
  ⟨false, true, 0, "normal", .fin 0, "heuristic fallback", candidateCount, none, none⟩

def heuristicSelection (py : Interp) (config : JASSConfig) (traces : List PyVal) :
    Except PyErr (Option Selection) := do
  match ← buildCandidates py config traces with
  | [] => .ok none
  | best :: candidates => .ok (some ⟨best.trace_idx, best.checkpoint,
      heuristicDecision (best :: candidates).length⟩)

/-- The mode, with `normal` for what is not a mode. -/
def samplingMode (py : Interp) (mode : PyVal) : PyStr :=
  let mode := py.lowercase (strip (py.str mode))
  if SAMPLING_MODES.contains mode then mode else "normal"

/-- From the judge's text to a selection. -/
def judgeSelection (py : Interp) (config : JASSConfig) (candidates : List Candidate)
    (text : PyStr) : Except PyErr Selection := do
  let parsed ← extractJsonObject py text
  let selected ← pyInt (← parsed.get "selected_candidate" (.int 0))
  if selected < 0 then throw .valueError "judge selected invalid candidate"
  else
    match candidates[selected.toNat]? with
    | none => throw .valueError "judge selected invalid candidate"
    | some candidate => do
      let mode ← parsed.get "sampling_mode" (.str "normal")
      let confidence ← pyFloat (← parsed.get "confidence" (.float (.fin 0)))
      let reason ← parsed.get "reason" (.str [])
      .ok ⟨candidate.trace_idx, candidate.checkpoint,
        ⟨true, false, selected, samplingMode py mode, confidence, sliceTo (py.str reason) 500,
          candidates.length, some config.model, none⟩⟩

/-- The exceptions that `select_checkpoint` falls back on. -/
def caughtClasses : List ExcClass :=
  [.urlError, .timeoutError, .valueError, .keyError, .jsonDecodeError]

/-- The heuristic selection, after the judge has failed with `e`. -/
def fallbackSelection (py : Interp) (config : JASSConfig) (traces : List PyVal) (e : PyErr) :
    Except PyErr (Option Selection) :=
  (heuristicSelection py config traces).map fun selection =>
    selection.map fun s =>
      { s with
        decision :=
          { s.decision with
            used_judge := true
            fallback := true
            error := some e.describe
            model := some config.model } }

/-- `enabled` is the flag `JASS_ENABLED`, `judge` the call of the endpoint. -/
def selectCheckpoint (py : Interp) (config : JASSConfig) (enabled : Bool)
    (judge : Prompt → Except PyErr PyStr) (traces : List PyVal) :
    Except PyErr (Option Selection) := do
  let candidates ← buildCandidates py config traces
  if candidates.isEmpty then .ok none
  else if !enabled then heuristicSelection py config traces
  else
    match judge (judgeMessages py candidates) >>= judgeSelection py config candidates with
    | .ok selection => .ok (some selection)
    | .error e =>
      if e.caughtBy caughtClasses then fallbackSelection py config traces e else .error e

/-! ### What candidates are -/

section Candidates

variable {py : Interp} {config : JASSConfig}

theorem candidateOf_spec {candidateId traceIdx : ℕ} {trace : PyVal} {candidate : Option Candidate}
    (h : candidateOf py config candidateId traceIdx trace = .ok candidate) :
    selectBestCheckpoint trace = .ok (candidate.map Candidate.checkpoint) ∧
      ∀ c ∈ candidate, c.trace_idx = traceIdx := by
  rw [candidateOf] at h
  by_cases htrace : trace.truthy = true
  · rw [if_neg (by simpa using htrace)] at h
    obtain ⟨checkpoint?, hbest, h⟩ := bind_eq_ok.mp h
    rcases checkpoint? with - | checkpoint
    · rw [← Except.ok.inj h]
      exact ⟨hbest, by simp⟩
    · dsimp only at h
      repeat obtain ⟨_, -, h⟩ := bind_eq_ok.mp h
      rw [← Except.ok.inj h]
      exact ⟨hbest, by simp⟩
  · rw [if_pos (by simpa using htrace), Except.ok.injEq] at h
    rw [← h]
    exact ⟨by simp [selectBestCheckpoint, htrace], by simp⟩

/-- The candidates of a trace list: each comes from one of the traces, and there is one for each
trace that has a checkpoint to replay. -/
theorem collectCandidates_spec {traces : List (PyVal × ℕ)} :
    ∀ {candidates out : List Candidate}, collectCandidates py config candidates traces = .ok out →
      (∀ c ∈ out, c ∈ candidates ∨ ∃ trace, (trace, c.trace_idx) ∈ traces ∧
        selectBestCheckpoint trace = .ok (some c.checkpoint)) ∧
      (out = [] ↔ candidates = [] ∧ ∀ p ∈ traces, selectBestCheckpoint p.1 = .ok none) := by
  induction traces with
  | nil =>
    intro candidates out h
    rw [collectCandidates, Except.ok.injEq] at h
    rw [← h]
    exact ⟨fun c hc => .inl hc, by simp⟩
  | cons p traces ih =>
    intro candidates out h
    obtain ⟨trace, traceIdx⟩ := p
    rw [collectCandidates] at h
    obtain ⟨candidate, hcandidate, h⟩ := bind_eq_ok.mp h
    obtain ⟨hbest, hidx⟩ := candidateOf_spec hcandidate
    obtain ⟨hmem, hnil⟩ := ih h
    refine ⟨fun c hc => ?_, ?_⟩
    · rcases hmem c hc with hc | ⟨t, ht, hbest'⟩
      · rcases List.mem_append.mp hc with hc | hc
        · exact .inl hc
        · have hsome : candidate = some c := by simpa using hc
          refine .inr ⟨trace, ?_, by rw [hbest, hsome]; rfl⟩
          rw [hidx c hsome]
          exact List.mem_cons_self
      · exact .inr ⟨t, List.mem_cons_of_mem _ ht, hbest'⟩
    · rw [hnil, List.forall_mem_cons, hbest]
      rcases candidate with - | c <;> simp

/-- A candidate of the ranking is one of the candidates with a new number. -/
theorem rankCandidates_getElem? {candidates : List Candidate} {k : ℕ} {c : Candidate}
    (h : (rankCandidates config candidates)[k]? = some c) :
    ∃ c₀ ∈ candidates, c = c₀.renumber k := by
  rw [rankCandidates, List.getElem?_map, Option.map_eq_some_iff] at h
  obtain ⟨⟨c₀, k'⟩, hzip, rfl⟩ := h
  rw [List.getElem?_zipIdx, Option.map_eq_some_iff] at hzip
  obtain ⟨c₁, hget, heq⟩ := hzip
  simp only [Nat.zero_add, Prod.mk.injEq] at heq
  obtain ⟨rfl, rfl⟩ := heq
  refine ⟨c₁, ?_, rfl⟩
  have hmem := List.mem_of_getElem? hget
  rw [sliceTo] at hmem
  split at hmem
  · exact List.mem_mergeSort.mp (List.mem_of_mem_take hmem)
  · exact List.mem_mergeSort.mp (List.mem_of_mem_take hmem)

theorem rankCandidates_eq_nil (hmax : 1 ≤ config.max_candidates) {candidates : List Candidate} :
    rankCandidates config candidates = [] ↔ candidates = [] := by
  have htake : config.max_candidates.toNat ≠ 0 := by omega
  rw [rankCandidates, sliceTo, if_pos (by omega)]
  constructor
  · intro h
    rw [List.map_eq_nil_iff, List.zipIdx_eq_nil_iff, List.take_eq_nil_iff] at h
    exact List.length_eq_zero_iff.mp (by simpa using congrArg List.length (h.resolve_left htake))
  · rintro rfl
    simp

/-- **What the judge is shown.** Candidates carry their position as number, each is the best
checkpoint of its trace, and there is none exactly when no trace has a checkpoint to replay. -/
theorem buildCandidates_spec {traces : List PyVal} {candidates : List Candidate}
    (h : buildCandidates py config traces = .ok candidates) :
    (∀ (k : ℕ) (c : Candidate), candidates[k]? = some c → c.judge_payload.candidate_id = k ∧
      ∃ trace, traces[c.trace_idx]? = some trace ∧
        selectBestCheckpoint trace = .ok (some c.checkpoint)) ∧
    (1 ≤ config.max_candidates →
      (candidates = [] ↔ ∀ trace ∈ traces, selectBestCheckpoint trace = .ok none)) := by
  rw [buildCandidates] at h
  obtain ⟨collected, hcollect, h⟩ := bind_eq_ok.mp h
  rw [Except.ok.injEq] at h
  obtain ⟨hmem, hnil⟩ := collectCandidates_spec hcollect
  constructor
  · intro k c hk
    rw [← h] at hk
    obtain ⟨c₀, hc₀, rfl⟩ := rankCandidates_getElem? hk
    refine ⟨rfl, ?_⟩
    rcases hmem c₀ hc₀ with hc₀ | ⟨trace, htrace, hbest⟩
    · cases hc₀
    · exact ⟨trace, List.mk_mem_zipIdx_iff_getElem?.mp htrace, hbest⟩
  · intro hmax
    rw [← h, rankCandidates_eq_nil hmax, hnil]
    constructor
    · rintro ⟨-, hall⟩ trace htrace
      obtain ⟨i, hi⟩ := List.mem_iff_getElem?.mp htrace
      exact hall (trace, i) (List.mk_mem_zipIdx_iff_getElem?.mpr hi)
    · intro hall
      refine ⟨rfl, fun p hp => hall p.1 ?_⟩
      exact List.mem_of_getElem? (List.mk_mem_zipIdx_iff_getElem?.mp hp)

/-- `messages[-k:]` can be taken. -/
def Sliceable (messages : PyVal) : Prop := ∃ xs, lastMessages messages 0 = .ok xs

theorem exists_lastMessages_iff {messages : PyVal} {k : ℤ} :
    (∃ recent, lastMessages messages k = .ok recent) ↔ Sliceable messages := by
  cases messages <;> simp [Sliceable, lastMessages]

/-- A trace that can be ranked and shown: the selection raises nothing on it, and the messages of
the checkpoint that it selects can be sliced. -/
def Shown (trace : PyVal) : Prop :=
  Trace.Judged trace ∧ ∀ ckpt, selectBestCheckpoint trace = .ok (some ckpt) →
    ∃ messages, ckpt.get "messages" (.list []) = .ok messages ∧ Sliceable messages

/-- Whatever answers one `get` answers them all. -/
theorem exists_items_of_get {v x : PyVal} {k : PyStr} {default : PyVal}
    (h : v.get k default = .ok x) : ∃ items, v = .dict items := by
  cases v with
  | dict items => exact ⟨items, rfl⟩
  | _ => cases h

theorem exists_candidateOf_iff {candidateId traceIdx : ℕ} {trace : PyVal} :
    (∃ candidate, candidateOf py config candidateId traceIdx trace = .ok candidate) ↔
      Shown trace := by
  rw [Shown, ← exists_selectBestCheckpoint_iff, candidateOf]
  by_cases htruthy : trace.truthy = true
  · rw [if_neg (by simpa using htruthy)]
    constructor
    · rintro ⟨candidate, h⟩
      obtain ⟨best, hbest, h⟩ := bind_eq_ok.mp h
      refine ⟨⟨best, hbest⟩, fun ckpt hckpt => ?_⟩
      obtain rfl := Except.ok.inj (hbest.symm.trans hckpt)
      -- all that is read before the messages
      iterate 6 obtain ⟨_, -, h⟩ := bind_eq_ok.mp h
      obtain ⟨messages, hmessages, h⟩ := bind_eq_ok.mp h
      obtain ⟨recent, hrecent, -⟩ := bind_eq_ok.mp h
      obtain ⟨xs, hxs, -⟩ := map_eq_ok.mp hrecent
      exact ⟨messages, hmessages, exists_lastMessages_iff.mp ⟨xs, hxs⟩⟩
    · rintro ⟨⟨best, hbest⟩, hmessages⟩
      refine exists_bind_of_ok hbest ?_
      rcases best with - | checkpoint
      · exact ⟨none, rfl⟩
      · obtain ⟨messages, hmessages, hslice⟩ := hmessages checkpoint hbest
        obtain ⟨found, hfound⟩ := (exists_failedPrefix_iff 0).mpr
          (exists_selectBestCheckpoint_iff.mp ⟨_, hbest⟩)
        rw [BNdsr.failedPrefix, hbest, ok_bind] at hfound
        dsimp only at hfound
        obtain ⟨flags, hflags, hfound⟩ := bind_eq_ok.mp hfound
        obtain ⟨score, hscore, -⟩ := bind_eq_ok.mp hfound
        obtain ⟨kvs, rfl⟩ := exists_items_of_get hmessages
        obtain ⟨recent, hrecent⟩ :=
          (exists_lastMessages_iff (k := config.max_recent_messages)).mpr hslice
        refine exists_bind_of_ok hflags (exists_bind_of_ok hscore ?_)
        refine exists_bind_of_ok (PyVal.get_dict ..) (exists_bind_of_ok (PyVal.get_dict ..) ?_)
        refine exists_bind_of_ok (PyVal.get_dict ..) (exists_bind_of_ok (PyVal.get_dict ..) ?_)
        refine exists_bind_of_ok hmessages ?_
        exact exists_bind_of_ok (map_eq_ok.mpr ⟨_, hrecent, rfl⟩) ⟨_, rfl⟩
  · have hnone : selectBestCheckpoint trace = .ok none := by simp [selectBestCheckpoint, htruthy]
    rw [if_pos (by simpa using htruthy), hnone]
    refine iff_of_true ⟨none, rfl⟩ ⟨⟨none, rfl⟩, fun ckpt hckpt => ?_⟩
    cases hckpt

theorem exists_collectCandidates_iff {traces : List (PyVal × ℕ)} : ∀ {candidates : List Candidate},
    (∃ out, collectCandidates py config candidates traces = .ok out) ↔
      ∀ p ∈ traces, Shown p.1 := by
  induction traces with
  | nil => exact fun {candidates} => iff_of_true ⟨candidates, rfl⟩ (List.forall_mem_nil _)
  | cons p traces ih =>
    intro candidates
    rw [List.forall_mem_cons]
    constructor
    · rintro ⟨out, h⟩
      obtain ⟨candidate, hcandidate, h⟩ := bind_eq_ok.mp h
      exact ⟨exists_candidateOf_iff.mp ⟨candidate, hcandidate⟩, ih.mp ⟨out, h⟩⟩
    · rintro ⟨hp, htraces⟩
      obtain ⟨candidate, hcandidate⟩ := exists_candidateOf_iff.mpr hp
      exact exists_bind_of_ok hcandidate (ih.mpr htraces)

/-- **Which traces can be ranked**: `build_candidates` returns exactly when each of them can be
shown. -/
theorem exists_buildCandidates_iff {traces : List PyVal} :
    (∃ candidates, buildCandidates py config traces = .ok candidates) ↔
      ∀ trace ∈ traces, Shown trace := by
  have hcollect : (∃ candidates, buildCandidates py config traces = .ok candidates) ↔
      ∃ out, collectCandidates py config [] traces.zipIdx = .ok out := by
    constructor
    · rintro ⟨candidates, h⟩
      obtain ⟨out, hout, -⟩ := bind_eq_ok.mp h
      exact ⟨out, hout⟩
    · rintro ⟨out, hout⟩
      exact exists_bind_of_ok hout ⟨_, rfl⟩
  rw [hcollect, exists_collectCandidates_iff, forall_mem_zipIdx_fst]

/-- Recorded traces can be shown. -/
theorem shown_of_readable {trace : PyVal} (h : Trace.Readable trace) : Shown trace := by
  refine ⟨h.judged, fun ckpt hckpt => ?_⟩
  obtain ⟨score, flags, checkpoints, hparts, hbest⟩ := (selectBestCheckpoint_spec hckpt).2 ckpt rfl
  have hmem : ckpt ∈ checkpoints := hbest.elim (fun h => h.mem.1) fun h => h.1.mem.1
  obtain ⟨items, _, checkpoints', rfl, _, _, hlist, hckpts⟩ := h
  obtain ⟨-, -, v, hv, hiter⟩ := hparts
  rw [← Except.ok.inj hv, hlist] at hiter
  obtain rfl := Except.ok.inj hiter
  obtain ⟨kvs, rfl, hreadable⟩ := hckpts ckpt hmem
  obtain ⟨messages, hmessages⟩ := hreadable.messages
  exact ⟨_, PyVal.get_dict .., by rw [hmessages]; exact ⟨_, rfl⟩⟩

/-! ### The first candidate -/

/-- What the plain selection compares of a candidate. -/
def Candidate.failedPrefix (candidate : Candidate) : ℚ × ℕ × PyVal :=
  (candidate.heuristic_score, candidate.trace_idx, candidate.checkpoint)

/-- A round that makes a candidate is a round that finds its checkpoint. -/
theorem failedPrefix_of_candidateOf {candidateId traceIdx : ℕ} {trace : PyVal}
    {candidate : Option Candidate}
    (h : candidateOf py config candidateId traceIdx trace = .ok candidate) :
    failedPrefix trace traceIdx = .ok (candidate.map Candidate.failedPrefix) := by
  rw [candidateOf] at h
  rw [BNdsr.failedPrefix]
  by_cases htrace : trace.truthy = true
  · rw [if_neg (by simpa using htrace)] at h
    obtain ⟨best, hbest, h⟩ := bind_eq_ok.mp h
    rcases best with - | checkpoint
    · rw [hbest, ← Except.ok.inj h]
      rfl
    · obtain ⟨flags, hflags, h⟩ := bind_eq_ok.mp h
      obtain ⟨score, hscore, h⟩ := bind_eq_ok.mp h
      -- what follows only fills in what the judge is shown
      repeat obtain ⟨_, -, h⟩ := bind_eq_ok.mp h
      rw [hbest, ok_bind]
      dsimp only
      rw [hflags, ok_bind, hscore, ← Except.ok.inj h]
      rfl
  · rw [if_pos (by simpa using htrace)] at h
    have hnone : selectBestCheckpoint trace = .ok none := by simp [selectBestCheckpoint, htrace]
    rw [hnone, ← Except.ok.inj h]
    rfl

theorem failedPrefixes_of_collectCandidates {traces : List (PyVal × ℕ)} :
    ∀ {candidates out : List Candidate}, collectCandidates py config candidates traces = .ok out →
      ∃ found, failedPrefixes traces = .ok found ∧
        out.map Candidate.failedPrefix = candidates.map Candidate.failedPrefix ++ found := by
  induction traces with
  | nil =>
    intro candidates out h
    rw [← Except.ok.inj h]
    exact ⟨[], rfl, (List.append_nil _).symm⟩
  | cons p traces ih =>
    obtain ⟨trace, traceIdx⟩ := p
    intro candidates out h
    obtain ⟨candidate, hcandidate, h⟩ := bind_eq_ok.mp h
    obtain ⟨found, hfound, hout⟩ := ih h
    refine ⟨(candidate.map Candidate.failedPrefix).toList ++ found, ?_, ?_⟩
    · rw [failedPrefixes, failedPrefix_of_candidateOf hcandidate, hfound]
      rfl
    · rw [hout, List.map_append, List.append_assoc]
      rcases candidate with - | candidate
      · rfl
      · rfl

/-- The first of the ranked candidates is the first of the greatest: the cut leaves it, and its new
number is not compared. -/
theorem head?_rankCandidates (hmax : 1 ≤ config.max_candidates) (candidates : List Candidate) :
    (rankCandidates config candidates).head?.map Candidate.failedPrefix =
      (candidates.map Candidate.failedPrefix).argmax Prod.fst := by
  have hcut : config.max_candidates.toNat ≠ 0 := by omega
  have hslice : ∀ sorted : List Candidate, (sliceTo sorted config.max_candidates).head? =
      sorted.head? :=
    fun sorted => by rw [sliceTo, if_pos (by omega), List.head?_take, if_neg hcut]
  rw [rankCandidates, List.head?_map, List.head?_zipIdx, hslice, Argmax.argmax_map,
    Argmax.head?_mergeSort, Option.map_map, Option.map_map]
  rfl

theorem heuristicSelection_eq_ok {traces : List PyVal} {selection : Option Selection}
    (h : heuristicSelection py config traces = .ok selection) :
    ∃ candidates, buildCandidates py config traces = .ok candidates ∧
      selection.map (fun s => (s.trace_idx, s.checkpoint)) =
        (candidates.head?.map Candidate.failedPrefix).map Prod.snd := by
  obtain ⟨candidates, hbuild, h⟩ := bind_eq_ok.mp h
  refine ⟨candidates, hbuild, ?_⟩
  rcases candidates with - | ⟨best, candidates⟩
  · rw [← Except.ok.inj h]
    rfl
  · rw [← Except.ok.inj h]
    rfl

/-- **The heuristic is the plain selection.** Whatever the heuristic selects, the plain selection
selects: the same trace and the same checkpoint, or nothing. The heuristic returns exactly when all
traces can be shown. -/
theorem heuristicSelection_refines (py : Interp) {config : JASSConfig}
    (hmax : 1 ≤ config.max_candidates)
    (traces : List PyVal) :
    (∀ selection, heuristicSelection py config traces = .ok selection →
      selectBestFailedPrefix traces = .ok (selection.map fun s => (s.trace_idx, s.checkpoint))) ∧
    ((∃ selection, heuristicSelection py config traces = .ok selection) ↔
      ∀ trace ∈ traces, Shown trace) := by
  constructor
  · intro selection h
    obtain ⟨candidates, hbuild, hselection⟩ := heuristicSelection_eq_ok h
    obtain ⟨collected, hcollect, hbuild⟩ := bind_eq_ok.mp hbuild
    obtain ⟨found, hfound, hmap⟩ := failedPrefixes_of_collectCandidates hcollect
    rw [selectBestFailedPrefix_eq, hfound, hselection, ← Except.ok.inj hbuild,
      head?_rankCandidates hmax, hmap]
    rfl
  · rw [← @exists_buildCandidates_iff py config]
    constructor
    · rintro ⟨selection, h⟩
      obtain ⟨candidates, hbuild, -⟩ := bind_eq_ok.mp h
      exact ⟨candidates, hbuild⟩
    · rintro ⟨candidates, hbuild⟩
      refine exists_bind_of_ok hbuild ?_
      rcases candidates with - | ⟨best, candidates⟩
      · exact ⟨none, rfl⟩
      · exact ⟨_, rfl⟩

end Candidates

/-! ### Legal selections -/

/-- The selection is one of the candidates, under the number that the judge saw. -/
structure LegalSelection (traces : List PyVal) (candidates : List Candidate) (s : Selection) :
    Prop where
  checkpoint : ∃ trace, traces[s.trace_idx]? = some trace ∧
    selectBestCheckpoint trace = .ok (some s.checkpoint)
  candidate : ∃ c ∈ candidates, (c.judge_payload.candidate_id : ℤ) = s.decision.selected_candidate ∧
    c.trace_idx = s.trace_idx ∧ c.checkpoint = s.checkpoint
  unique : ∀ c ∈ candidates, (c.judge_payload.candidate_id : ℤ) = s.decision.selected_candidate →
    c.trace_idx = s.trace_idx ∧ c.checkpoint = s.checkpoint
  count : s.decision.candidate_count = candidates.length
  range : 0 ≤ s.decision.selected_candidate ∧
    s.decision.selected_candidate < s.decision.candidate_count
  mode : s.decision.sampling_mode ∈ SAMPLING_MODES

/-- What a result of `select_checkpoint` owes: nothing is selected exactly when no trace has a
checkpoint to replay. -/
def Legal (py : Interp) (config : JASSConfig) (traces : List PyVal) : Option Selection → Prop
  | none => ∀ trace ∈ traces, selectBestCheckpoint trace = .ok none
  | some s => (∃ trace ∈ traces, selectBestCheckpoint trace ≠ .ok none) ∧
      ∃ candidates, buildCandidates py config traces = .ok candidates ∧
        LegalSelection traces candidates s

section Select

variable {py : Interp} {config : JASSConfig} {traces : List PyVal} {candidates : List Candidate}

theorem samplingMode_mem (mode : PyVal) : samplingMode py mode ∈ SAMPLING_MODES := by
  rw [samplingMode]
  split
  · next h => exact List.contains_iff_mem.mp h
  · decide

/-- Selecting the candidate at position `k`. -/
theorem LegalSelection.of_getElem? (h : buildCandidates py config traces = .ok candidates) {k : ℕ}
    {c : Candidate} (hk : candidates[k]? = some c) {decision : Decision}
    (hselected : decision.selected_candidate = k)
    (hcount : decision.candidate_count = candidates.length)
    (hmode : decision.sampling_mode ∈ SAMPLING_MODES) :
    LegalSelection traces candidates ⟨c.trace_idx, c.checkpoint, decision⟩ := by
  obtain ⟨hid, hbest⟩ := (buildCandidates_spec h).1 k c hk
  have hlt : k < candidates.length := (List.getElem?_eq_some_iff.mp hk).1
  refine ⟨hbest, ⟨c, List.mem_of_getElem? hk, ?_, rfl, rfl⟩, fun c' hc' hid' => ?_,
    hcount, ?_, hmode⟩
  · rw [hid, hselected]
  · -- numbers are positions, so the number determines the candidate
    obtain ⟨k', hk'⟩ := List.mem_iff_getElem?.mp hc'
    rw [((buildCandidates_spec h).1 k' c' hk').1, hselected, Nat.cast_inj] at hid'
    rw [hid', hk, Option.some.injEq] at hk'
    rw [hk']
    exact ⟨rfl, rfl⟩
  · rw [hselected, hcount]
    omega

theorem Legal.of_selection (h : buildCandidates py config traces = .ok candidates) {s : Selection}
    (hs : LegalSelection traces candidates s) : Legal py config traces (some s) := by
  obtain ⟨trace, htrace, hbest⟩ := hs.checkpoint
  refine ⟨⟨trace, List.mem_of_getElem? htrace, ?_⟩, candidates, h, hs⟩
  rw [hbest]
  simp

/-- A legal selection stays legal when its decision changes in nothing that is owed. -/
theorem LegalSelection.redecide {s : Selection} (hs : LegalSelection traces candidates s)
    {decision : Decision}
    (hselected : decision.selected_candidate = s.decision.selected_candidate)
    (hcount : decision.candidate_count = s.decision.candidate_count)
    (hmode : decision.sampling_mode = s.decision.sampling_mode) :
    LegalSelection traces candidates { s with decision := decision } where
  checkpoint := hs.checkpoint
  candidate := hselected ▸ hs.candidate
  unique := hselected ▸ hs.unique
  count := hcount.trans hs.count
  range := hselected ▸ hcount ▸ hs.range
  mode := hmode ▸ hs.mode

/-- The heuristic selects the first candidate. -/
theorem heuristicSelection_legal (h : buildCandidates py config traces = .ok candidates)
    (hne : candidates ≠ []) :
    ∃ s, heuristicSelection py config traces = .ok (some s) ∧
      LegalSelection traces candidates s := by
  rcases candidates with - | ⟨best, candidates⟩
  · exact absurd rfl hne
  · rw [heuristicSelection, h]
    have hmode : PyStr.ofString "normal" ∈ SAMPLING_MODES := by decide
    exact ⟨_, rfl, .of_getElem? h (k := 0) rfl rfl rfl hmode⟩

/-- A judge's answer is legal whenever it is one. -/
theorem judgeSelection_legal (h : buildCandidates py config traces = .ok candidates) {text : PyStr}
    {s : Selection} (hs : judgeSelection py config candidates text = .ok s) :
    LegalSelection traces candidates s := by
  rw [judgeSelection] at hs
  obtain ⟨parsed, -, hs⟩ := bind_eq_ok.mp hs
  obtain ⟨selected?, -, hs⟩ := bind_eq_ok.mp hs
  obtain ⟨selected, -, hs⟩ := bind_eq_ok.mp hs
  split at hs
  · cases hs
  · next hneg =>
    split at hs
    · cases hs
    · next c hk =>
      repeat obtain ⟨_, -, hs⟩ := bind_eq_ok.mp hs
      rw [← Except.ok.inj hs]
      exact .of_getElem? h hk (by dsimp only; omega) rfl (samplingMode_mem _)

/-! ### The texts that are handled -/

/-- A conversion that either succeeds or fails with a `ValueError`. -/
def ValueOnly {α : Type} (x : Except PyErr α) : Prop :=
  ∀ e, x = .error e → e.caughtBy caughtClasses = true

/-- An object of a judge's answer, for `count` candidates: `selected_candidate` converts or is a
`ValueError`, and if it is in range then `confidence` converts or is a `ValueError`. -/
def HandledObject (count : ℕ) (items : List (PyStr × PyVal)) : Prop :=
  ValueOnly (pyInt (dictGet items "selected_candidate" (.int 0))) ∧
    ∀ selected, pyInt (dictGet items "selected_candidate" (.int 0)) = .ok selected →
      0 ≤ selected → selected < count →
      ValueOnly (pyFloat (dictGet items "confidence" (.float (.fin 0))))

/-- A judge's text that `select_checkpoint` can handle: extraction fails with a `ValueError`, or it
finds an object that can be handled. -/
def Handled (py : Interp) (count : ℕ) (text : PyStr) : Prop :=
  ValueOnly (extractJsonObject py text) ∧
    ∀ v, extractJsonObject py text = .ok v → ∃ items, v = .dict items ∧ HandledObject count items

theorem valueOnly_ok {α : Type} (a : α) : ValueOnly (.ok a : Except PyErr α) := by
  intro e he
  cases he

theorem valueOnly_error {α : Type} {e : PyErr} :
    ValueOnly (.error e : Except PyErr α) ↔ e.caughtBy caughtClasses = true :=
  ⟨fun h => h e rfl, fun h _ he => Except.error.inj he ▸ h⟩

/-- A sequence whose first half fails, fails the same way. -/
theorem valueOnly_bind_error {α β : Type} {e : PyErr} (f : α → Except PyErr β) :
    ValueOnly ((.error e : Except PyErr α) >>= f) ↔ e.caughtBy caughtClasses = true :=
  valueOnly_error

/-- The conversions of an object, in the order in which the code makes them. -/
theorem judgeSelection_object_iff {text : PyStr} {items : List (PyStr × PyVal)}
    (h : extractJsonObject py text = .ok (.dict items)) :
    ValueOnly (judgeSelection py config candidates text) ↔
      HandledObject candidates.length items := by
  have hsel : judgeSelection py config candidates text =
      (pyInt (dictGet items "selected_candidate" (.int 0)) >>= fun selected =>
        if selected < 0 then throw .valueError "judge selected invalid candidate"
        else
          match candidates[selected.toNat]? with
          | none => throw .valueError "judge selected invalid candidate"
          | some candidate => do
            let confidence ← pyFloat (dictGet items "confidence" (.float (.fin 0)))
            .ok ⟨candidate.trace_idx, candidate.checkpoint,
              ⟨true, false, selected, samplingMode py (dictGet items "sampling_mode" (.str "normal")),
                confidence, sliceTo (py.str (dictGet items "reason" (.str []))) 500,
                candidates.length, some config.model, none⟩⟩) := by
    rw [judgeSelection, h]
    rfl
  rw [hsel, HandledObject]
  rcases pyInt (dictGet items "selected_candidate" (.int 0)) with e | selected
  · rw [valueOnly_bind_error, valueOnly_error]
    simp
  · have hrange : ValueOnly (throw .valueError "judge selected invalid candidate" :
        Except PyErr Selection) := valueOnly_error.mpr (by decide)
    simp only [bind, Except.bind, valueOnly_ok, Except.ok.injEq, forall_eq', true_and]
    by_cases hneg : selected < 0
    · rw [if_pos hneg]
      exact iff_of_true hrange fun hpos => absurd hneg (not_lt.mpr hpos)
    · rw [if_neg hneg]
      rcases hget : candidates[selected.toNat]? with - | candidate
      · have hlen := List.getElem?_eq_none_iff.mp hget
        exact iff_of_true hrange fun _ hlt => by omega
      · have hlt := (List.getElem?_eq_some_iff.mp hget).1
        have hin : 0 ≤ selected ∧ selected < candidates.length := by omega
        simp only [hin.1, hin.2, forall_const]
        rcases pyFloat (dictGet items "confidence" (.float (.fin 0))) with e | confidence
        · rw [valueOnly_error]
          exact valueOnly_error.symm
        · exact iff_of_true (valueOnly_ok _) (valueOnly_ok _)

/-- **The texts that are handled** are those on which no exception leaves the `try`. -/
theorem judgeSelection_valueOnly_iff (py : Interp) (config : JASSConfig)
    (candidates : List Candidate) (text : PyStr) :
    ValueOnly (judgeSelection py config candidates text) ↔ Handled py candidates.length text := by
  rw [Handled]
  rcases h : extractJsonObject py text with e | v
  · rw [judgeSelection, h, valueOnly_bind_error, valueOnly_error]
    simp
  · by_cases hdict : ∃ items, v = .dict items
    · obtain ⟨items, rfl⟩ := hdict
      rw [judgeSelection_object_iff h]
      simp [valueOnly_ok]
    · -- `parsed.get` on anything else
      have hraise : ¬ValueOnly (judgeSelection py config candidates text) := by
        have hattr : ∃ msg, judgeSelection py config candidates text =
            .error ⟨.attributeError, msg⟩ := by
          rw [judgeSelection, h]
          cases v with
          | dict items => exact absurd ⟨items, rfl⟩ hdict
          | _ => exact ⟨_, rfl⟩
        obtain ⟨msg, hattr⟩ := hattr
        rw [hattr, valueOnly_error, PyErr.caughtBy]
        simp [caughtClasses, ExcClass.isA, ExcClass.base]
      refine iff_of_false hraise fun hh => hdict ?_
      obtain ⟨items, hitems, -⟩ := hh.2 v rfl
      exact ⟨items, hitems⟩

/-- The selection that a failure falls back on. -/
theorem fallbackSelection_legal (h : buildCandidates py config traces = .ok candidates)
    (hne : candidates ≠ []) (e : PyErr) :
    ∃ s, fallbackSelection py config traces e = .ok (some s) ∧
      LegalSelection traces candidates s := by
  obtain ⟨s, hs, hlegal⟩ := heuristicSelection_legal h hne
  rw [fallbackSelection, hs]
  exact ⟨_, rfl, hlegal.redecide rfl rfl rfl⟩

section Judged

variable {judge : Prompt → Except PyErr PyStr}

theorem selectCheckpoint_judged_ok (h : buildCandidates py config traces = .ok candidates)
    (hne : candidates ≠ []) {s : Selection}
    (hrun : judge (judgeMessages py candidates) >>= judgeSelection py config candidates = .ok s) :
    selectCheckpoint py config true judge traces = .ok (some s) := by
  rw [selectCheckpoint, h]
  simp only [bind, Except.bind] at hrun ⊢
  simp [hne, hrun]

theorem selectCheckpoint_judged_error (h : buildCandidates py config traces = .ok candidates)
    (hne : candidates ≠ []) {e : PyErr}
    (hrun : judge (judgeMessages py candidates) >>= judgeSelection py config candidates = .error e) :
    selectCheckpoint py config true judge traces =
      if e.caughtBy caughtClasses then fallbackSelection py config traces e else .error e := by
  rw [selectCheckpoint, h]
  simp only [bind, Except.bind] at hrun ⊢
  simp [hne, hrun]

theorem exists_legal_of_caught (h : buildCandidates py config traces = .ok candidates)
    (hne : candidates ≠ []) {e : PyErr} (hcaught : e.caughtBy caughtClasses = true)
    (hrun : judge (judgeMessages py candidates) >>= judgeSelection py config candidates = .error e) :
    ∃ selection, selectCheckpoint py config true judge traces = .ok selection ∧
      Legal py config traces selection := by
  obtain ⟨s, hs, hlegal⟩ := fallbackSelection_legal h hne e
  refine ⟨some s, ?_, .of_selection h hlegal⟩
  rw [selectCheckpoint_judged_error h hne hrun, if_pos hcaught, hs]

end Judged

/-- **When there is a legal selection**: the candidates can be built, and where the judge is asked
and answers, its text is one that can be handled. -/
theorem selectCheckpoint_legal_iff (config : JASSConfig) (hmax : 1 ≤ config.max_candidates)
    (enabled : Bool) {judge : Prompt → Except PyErr PyStr}
    (hjudge : ∀ prompt e, judge prompt = .error e →
      e.caughtBy [.urlError, .timeoutError, .valueError] = true) (traces : List PyVal) :
    (∃ selection, selectCheckpoint py config enabled judge traces = .ok selection ∧
      Legal py config traces selection) ↔
    ∃ candidates, buildCandidates py config traces = .ok candidates ∧
      (candidates ≠ [] → enabled = true → ∀ text,
        judge (judgeMessages py candidates) = .ok text → Handled py candidates.length text) := by
  rcases hbuild : buildCandidates py config traces with e | candidates
  · simp [selectCheckpoint, hbuild, bind, Except.bind]
  simp only [Except.ok.injEq, exists_eq_left']
  by_cases hne : candidates = []
  · have hnone := ((buildCandidates_spec hbuild).2 hmax).mp hne
    refine iff_of_true ⟨none, ?_, hnone⟩ fun h => absurd hne h
    simp [selectCheckpoint, hbuild, hne, bind, Except.bind]
  rcases enabled with - | -
  · -- the judge is off: the heuristic selects
    obtain ⟨s, hs, hlegal⟩ := heuristicSelection_legal hbuild hne
    refine iff_of_true ⟨some s, ?_, .of_selection hbuild hlegal⟩ (by simp)
    simp [selectCheckpoint, hbuild, hne, hs, bind, Except.bind]
  · simp only [ne_eq, hne, not_false_eq_true, forall_const]
    rcases hjudged : judge (judgeMessages py candidates) with e | text
    · -- the call failed: the heuristic selects
      have hcaught : e.caughtBy caughtClasses = true :=
        PyErr.caughtBy_mono (by decide) (hjudge _ e hjudged)
      refine iff_of_true (exists_legal_of_caught hbuild hne hcaught ?_) (by simp)
      rw [hjudged]
      rfl
    · have hrun : judge (judgeMessages py candidates) >>= judgeSelection py config candidates =
          judgeSelection py config candidates text := by
        rw [hjudged]
        rfl
      have hhandled := judgeSelection_valueOnly_iff py config candidates text
      simp only [Except.ok.injEq, forall_eq', ← hhandled]
      rcases hsel : judgeSelection py config candidates text with e | s
      · rw [valueOnly_error]
        constructor
        · rintro ⟨selection, hselected, -⟩
          by_contra hc
          rw [selectCheckpoint_judged_error hbuild hne (hrun.trans hsel), if_neg hc] at hselected
          cases hselected
        · exact fun hc => exists_legal_of_caught hbuild hne hc (hrun.trans hsel)
      · exact iff_of_true ⟨some s, selectCheckpoint_judged_ok hbuild hne (hrun.trans hsel),
          .of_selection hbuild (judgeSelection_legal hbuild hsel)⟩ (valueOnly_ok s)

end Select

/-! ### One trace with one checkpoint -/

def sampleTrace : PyVal :=
  .dict
    [("checkpoints", .list [.dict
        [("kind", .str "after_read_tool"), ("messages", .list []), ("replay_actions", .list []),
          ("turn_idx", .int 2), ("tool_name", .str "get_user_details"), ("features", .dict [])]]),
      ("flags", .dict [("read_count", .int 1), ("valid_tool_calls", .int 1)])]

/-- The heuristic on an absent trace and a recorded one. -/
theorem heuristicSelection_refines_sample : ∃ s,
    heuristicSelection .silent {} [.null, sampleTrace] = .ok (some s) ∧ s.trace_idx = 1 ∧
    selectBestFailedPrefix [.null, sampleTrace] = .ok (some (s.trace_idx, s.checkpoint)) := by
  have hrun : (heuristicSelection .silent {} [.null, sampleTrace]).map
      (fun selection => selection.map Selection.trace_idx) = .ok (some 1) := by decide +kernel
  obtain ⟨selection, hselection, hidx⟩ := map_eq_ok.mp hrun
  obtain ⟨s, rfl, htrace⟩ := Option.map_eq_some_iff.mp hidx
  refine ⟨s, hselection, htrace, ?_⟩
  exact (heuristicSelection_refines .silent (by decide) [.null, sampleTrace]).1 _ hselection

/-- A checkpoint whose messages are `null`. -/
def unshownTrace : PyVal :=
  .dict
    [("checkpoints", .list [.dict [("kind", .str "after_read_tool"), ("messages", .null)]]),
      ("flags", .dict [("read_count", .int 1)])]

/-- The plain selection does not read the messages. -/
theorem heuristicSelection_raises :
    (¬∃ selection, heuristicSelection .silent {} [unshownTrace] = .ok selection) ∧
    ∃ ckpt, selectBestFailedPrefix [unshownTrace] = .ok (some (0, ckpt)) := by
  constructor
  · rintro ⟨selection, h⟩
    have hraise : ((heuristicSelection .silent {} [unshownTrace]).map Option.isSome).toOption =
        none := by
      decide +kernel
    rw [h] at hraise
    cases hraise
  · exact ⟨.dict [("kind", .str "after_read_tool"), ("messages", .null)], by decide +kernel⟩

/-- A judge that always answers the same. -/
def sampleJudge (text : PyStr) : Prompt → Except PyErr PyStr := fun _ => .ok text

theorem sampleJudge_error (text : PyStr) (prompt : Prompt) (e : PyErr)
    (h : sampleJudge text prompt = .error e) :
    e.caughtBy [.urlError, .timeoutError, .valueError] = true := by
  cases h

theorem sampleTrace_candidates : ∃ c, buildCandidates .silent {} [sampleTrace] = .ok [c] := by
  have hlen : (buildCandidates .silent {} [sampleTrace]).map List.length = .ok 1 := by
    decide +kernel
  obtain ⟨candidates, hbuild, hone⟩ := map_eq_ok.mp hlen
  obtain ⟨c, rfl⟩ := List.length_eq_one_iff.mp hone
  exact ⟨c, hbuild⟩

theorem selectCheckpoint_legal_sample : ∃ selection,
    selectCheckpoint .silent {} true (sampleJudge "\x7b\"selected_candidate\": 0\x7d")
      [sampleTrace] =
      .ok selection ∧ Legal .silent {} [sampleTrace] selection := by
  refine (selectCheckpoint_legal_iff {} (by decide) true (sampleJudge_error _) [sampleTrace]).mpr ?_
  obtain ⟨c, hbuild⟩ := sampleTrace_candidates
  refine ⟨[c], hbuild, fun _ _ text htext => ?_⟩
  rw [sampleJudge, Except.ok.injEq] at htext
  have hextract : extractJsonObject .silent text =
      .ok (.dict [("selected_candidate", .int 0)]) := by
    rw [← htext]
    decide +kernel
  rw [Handled, hextract]
  refine ⟨valueOnly_ok _, fun v hv => ⟨_, (Except.ok.inj hv).symm, ?_⟩⟩
  -- the number converts, and the confidence is the default
  exact ⟨valueOnly_ok (0 : ℤ), fun _ _ _ _ => valueOnly_ok (PyFloat.fin 0)⟩

/-- The class of the exception that a call leaves with. -/
def raised {α : Type} : Except PyErr α → Option ExcClass
  | .ok _ => none
  | .error e => some e.cls

theorem raised_eq_some {α : Type} {x : Except PyErr α} {cls : ExcClass} :
    raised x = some cls ↔ ∃ e, x = .error e ∧ e.cls = cls := by
  cases x <;> simp [raised]

/-- An empty array, and a candidate that is `null`: both leave the `try`. -/
theorem selectCheckpoint_raises :
    (∃ e, selectCheckpoint .silent {} true (sampleJudge "[]") [sampleTrace] = .error e ∧
      e.cls = .attributeError) ∧
    ∃ e, selectCheckpoint .silent {} true (sampleJudge "\x7b\"selected_candidate\": null\x7d")
      [sampleTrace] = .error e ∧ e.cls = .typeError := by
  constructor
  · exact raised_eq_some.mp (by decide +kernel)
  · exact raised_eq_some.mp (by decide +kernel)

end Jass

end ToolAgent
