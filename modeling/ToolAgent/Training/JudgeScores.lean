import ToolAgent.Library.Memo
import ToolAgent.Training.LlmJudge

/-!
# The scores of a judge

What `parse_judge_response` and `score_steps` of `toolagent.training.llm_judge` make of the answers
of a judge.

## Answers

An answer is decoded, or else what stands between its outermost braces, and both decoders are
guarded by `JSONDecodeError` alone. A document that is not an object has no `get`, an integer of
more than 4300 digits is a `ValueError`, deep nesting a `RecursionError`, and an integer beyond the
floats an `OverflowError`. None of these is caught. A `nan` passes the clamp as `1.0`.

## The cache

The scores of the steps of all trajectories are cached under the task, the beginning of the text and
the printed calls. The prompt also has the observations, and it marks a text that was cut. So two
steps can share a score although the judge would have been shown different prompts.

## Main definitions

* `Document`, `DecoderRaises` — what the decoders make of an answer
* `CleanAnswer`, `ScoredAnswer` — answers that parse, and answers that `score_steps` can use
* `judgeRun` — several calls of `score_steps` with one cache

## Main results

* `parseJudgeResponse_robust_iff` — when an answer is parsed as promised
* `scoreSteps_scored_iff` — when every step gets a score of `[0, 1]`
* `judgeRun_transparent_iff` — when the cache is transparent
-/

namespace ToolAgent

namespace LlmJudge

open Python

/-! ### The document of an answer -/

section Parse

variable (py : Interp) (text : PyStr)

/-- The JSON document of an answer: the text itself, or what stands between its outermost braces. -/
inductive Document : PyVal → Prop
  | whole {v : PyVal} (h : loads py.recursionLimit text = .ok v) : Document v
  | braces {v : PyVal} {e : PyErr} {span : PyStr} (h : loads py.recursionLimit text = .error e)
      (he : e.cls = .jsonDecodeError) (hspan : braceSpan text = some span)
      (hv : loads py.recursionLimit span = .ok v) : Document v

/-- A decoder raises something else than `JSONDecodeError`. -/
inductive DecoderRaises : PyErr → Prop
  | whole {e : PyErr} (h : loads py.recursionLimit text = .error e)
    (he : e.cls ≠ .jsonDecodeError) :
      DecoderRaises e
  | braces {e e' : PyErr} {span : PyStr} (h : loads py.recursionLimit text = .error e)
      (he : e.cls = .jsonDecodeError) (hspan : braceSpan text = some span)
      (hv : loads py.recursionLimit span = .error e') (he' : e'.cls ≠ .jsonDecodeError) :
      DecoderRaises e'

/-- `data.get("score", 0.0)` -/
def scoreOf (items : List (PyStr × PyVal)) : PyVal := dictGet items "score" (.float (.fin 0))

/-- The object has a score that `float` reads as a number. -/
def NumericScore (items : List (PyStr × PyVal)) : Prop :=
  ∃ score x, items.lookup ("score" : PyStr) = some score ∧ pyFloat score = .ok x ∧ x ≠ .nan

/-- What `parse_judge_response` promises of an answer. -/
def RobustlyParsed : Prop :=
  ∃ s, parseJudgeResponse py text = .ok s ∧ 0 ≤ s ∧ s ≤ 1 ∧
    ((¬∃ items, Document py text (.dict items) ∧ NumericScore items) → s = 0)

/-- The answer is free of what the function does not catch, and its score is no `nan`. -/
structure CleanAnswer : Prop where
  decoder : ∀ e, ¬DecoderRaises py text e
  object : ∀ v, Document py text v → v.isDict = true
  score : ∀ items, Document py text (.dict items) →
    pyFloat (scoreOf items) ≠ .ok .nan ∧
      ∀ e, pyFloat (scoreOf items) = .error e → e.cls ≠ .overflowError

/-- What remains of this for `score_steps`, which catches a `ValueError`. -/
structure ScoredAnswer : Prop where
  decoder : ∀ e, DecoderRaises py text e → e.cls ≠ .recursionError
  object : ∀ v, Document py text v → v.isDict = true
  score : ∀ items, Document py text (.dict items) →
    ∀ e, pyFloat (scoreOf items) = .error e → e.cls ≠ .overflowError

end Parse

section Answers

variable {py : Interp} {text : PyStr}

theorem caughtBy_jsonDecodeError (e : PyErr) :
    e.caughtBy [.jsonDecodeError] = true ↔ e.cls = .jsonDecodeError := by
  rw [PyErr.caughtBy]
  generalize e.cls = cls
  cases cls <;> decide

/-- The two decoders, one after the other. -/
theorem responseJson_of_ok {v : PyVal} (h : loads py.recursionLimit text = .ok v) :
    responseJson py text = .ok (some v) := by
  rw [responseJson, h]

theorem responseJson_of_raised {e : PyErr} (h : loads py.recursionLimit text = .error e)
    (he : e.cls ≠ .jsonDecodeError) : responseJson py text = .error e := by
  rw [responseJson, h]
  exact if_neg fun hcaught => he ((caughtBy_jsonDecodeError e).mp hcaught)

theorem responseJson_of_decode {e : PyErr} (h : loads py.recursionLimit text = .error e)
    (he : e.cls = .jsonDecodeError) :
    responseJson py text =
      match braceSpan text with
      | none => .ok none
      | some span =>
        match loads py.recursionLimit span with
        | .ok data => .ok (some data)
        | .error e => if e.caughtBy [.jsonDecodeError] then .ok none else .error e := by
  rw [responseJson, h]
  exact if_pos ((caughtBy_jsonDecodeError e).mpr he)

theorem Document.responseJson {v : PyVal} (h : Document py text v) :
    responseJson py text = .ok (some v) := by
  obtain h | ⟨h, he, hspan, hv⟩ := h
  · exact responseJson_of_ok h
  · rw [responseJson_of_decode h he, hspan]
    simp only [hv]

theorem DecoderRaises.responseJson {e : PyErr} (h : DecoderRaises py text e) :
    responseJson py text = .error e := by
  obtain ⟨h, he⟩ | ⟨h, he, hspan, hv, he'⟩ := h
  · exact responseJson_of_raised h he
  · rw [responseJson_of_decode h he, hspan]
    simp only [hv]
    exact if_neg fun hcaught => he' ((caughtBy_jsonDecodeError e).mp hcaught)

/-- An answer has a document, or makes a decoder raise, or has nothing to decode. -/
theorem responseJson_cases (py : Interp) (text : PyStr) :
    (∃ v, Document py text v) ∨ (∃ e, DecoderRaises py text e) ∨
      responseJson py text = .ok none := by
  rcases h : loads py.recursionLimit text with e | v
  · by_cases he : e.cls = .jsonDecodeError
    · rcases hspan : braceSpan text with _ | span
      · right; right
        rw [responseJson_of_decode h he, hspan]
      · rcases hv : loads py.recursionLimit span with e' | v
        · by_cases he' : e'.cls = .jsonDecodeError
          · right; right
            rw [responseJson_of_decode h he, hspan]
            simp only [hv]
            exact if_pos ((caughtBy_jsonDecodeError e').mpr he')
          · exact .inr (.inl ⟨e', .braces h he hspan hv he'⟩)
        · exact .inl ⟨v, .braces h he hspan hv⟩
    · exact .inr (.inl ⟨e, .whole h he⟩)
  · exact .inl ⟨v, .whole h⟩

/-! ### The score of an answer -/

theorem clamp01_mem (x : PyFloat) : 0 ≤ clamp01 x ∧ clamp01 x ≤ 1 := by
  cases x with
  | fin q => exact ⟨le_max_left _ _, max_le zero_le_one (min_le_left _ _)⟩
  | inf neg => cases neg <;> simp [clamp01]
  | nan => simp [clamp01]

theorem parse_of_document {items : List (PyStr × PyVal)} (h : Document py text (.dict items)) :
    parseJudgeResponse py text =
      match pyFloat (scoreOf items) with
      | .ok x => .ok (clamp01 x)
      | .error e => if e.caughtBy [.typeError, .valueError] then .ok 0 else .error e := by
  rw [parseJudgeResponse, h.responseJson]
  rfl

theorem parse_of_not_dict {v : PyVal} (h : Document py text v) (hv : v.isDict = false) :
    parseJudgeResponse py text =
      .error ⟨.attributeError, "'" ++ v.typeName ++ "' object has no attribute 'get'"⟩ := by
  rw [parseJudgeResponse, h.responseJson]
  cases v with
  | dict items => cases hv
  | _ => rfl

theorem parse_of_raised {e : PyErr} (h : DecoderRaises py text e) :
    parseJudgeResponse py text = .error e := by
  rw [parseJudgeResponse, h.responseJson]
  rfl

theorem parse_of_none (h : responseJson py text = .ok none) :
    parseJudgeResponse py text = .ok 0 := by
  rw [parseJudgeResponse, h]
  rfl

theorem Document.unique {v w : PyVal} (h : Document py text v) (h' : Document py text w) : v = w :=
  Option.some.inj (Except.ok.inj (h.responseJson.symm.trans h'.responseJson))

theorem Document.items_unique {items items' : List (PyStr × PyVal)}
    (h : Document py text (.dict items)) (h' : Document py text (.dict items')) : items' = items :=
  PyVal.dict.inj (h'.unique h)

/-- A score that `float` cannot read counts as `0`, unless it is too large. -/
theorem caughtBy_pyFloat {v : PyVal} {e : PyErr} (h : pyFloat v = .error e) :
    e.caughtBy [.typeError, .valueError] = true ↔ e.cls ≠ .overflowError := by
  rw [PyErr.caughtBy]
  rcases pyFloat_error_cls h with h | h | h
  · rw [h]
    decide
  · rw [h]
    decide
  · rw [h]
    decide

/-- The score of an object is clamped, or replaced by `0`. -/
theorem parse_of_object {items : List (PyStr × PyVal)} (h : Document py text (.dict items)) :
    RobustlyParsed py text ↔ pyFloat (scoreOf items) ≠ .ok .nan ∧
      ∀ e, pyFloat (scoreOf items) = .error e → e.cls ≠ .overflowError := by
  have hparse := parse_of_document h
  have hnumeric : (∃ items', Document py text (.dict items') ∧ NumericScore items') ↔
      NumericScore items := by
    constructor
    · rintro ⟨items', h', hscore⟩
      exact h.items_unique h' ▸ hscore
    · exact fun hscore => ⟨items, h, hscore⟩
  rw [RobustlyParsed, hnumeric]
  rcases hscore : pyFloat (scoreOf items) with e | x
  · rw [hscore] at hparse
    dsimp only at hparse
    by_cases hcls : e.cls = .overflowError
    · rw [if_neg fun hcaught => (caughtBy_pyFloat hscore).mp hcaught hcls] at hparse
      refine iff_of_false ?_ fun hclean => hclean.2 e rfl hcls
      rintro ⟨s, hs, -⟩
      rw [hparse] at hs
      cases hs
    · rw [if_pos ((caughtBy_pyFloat hscore).mpr hcls)] at hparse
      refine iff_of_true ⟨0, hparse, le_rfl, zero_le_one, fun _ => rfl⟩ ⟨(fun h => by cases h), ?_⟩
      rintro e' he'
      exact (Except.error.inj he') ▸ hcls
  · rw [hscore] at hparse
    by_cases hnan : x = .nan
    · subst hnan
      -- the clamp turns a `nan` into `1`
      refine iff_of_false ?_ fun hclean => hclean.1 rfl
      rintro ⟨s, hs, -, -, hzero⟩
      rw [hparse] at hs
      have hone : clamp01 .nan = 0 := (Except.ok.inj hs).trans (hzero ?_)
      · exact absurd hone one_ne_zero
      · rintro ⟨score, x, hlookup, hx, hne⟩
        rw [scoreOf, dictGet, hlookup, Option.getD_some, hx] at hscore
        exact hne (Except.ok.inj hscore)
    · refine iff_of_true ?_ ⟨fun h => hnan (Except.ok.inj h), fun e he => by cases he⟩
      refine ⟨clamp01 x, hparse, (clamp01_mem x).1, (clamp01_mem x).2, fun hno => ?_⟩
      rcases hlookup : items.lookup ("score" : PyStr) with _ | score
      · rw [scoreOf, dictGet, hlookup] at hscore
        rw [← Except.ok.inj hscore]
        rfl
      · rw [scoreOf, dictGet, hlookup] at hscore
        exact absurd ⟨score, x, hlookup, hscore, hnan⟩ hno

theorem not_decoderRaises {v : PyVal} (h : Document py text v) (e : PyErr) :
    ¬DecoderRaises py text e := by
  intro he
  have hboth := h.responseJson.symm.trans he.responseJson
  cases hboth

theorem nothing_decoded (h : responseJson py text = .ok none) :
    (∀ v, ¬Document py text v) ∧ ∀ e, ¬DecoderRaises py text e := by
  constructor
  · intro v hv
    have hboth := hv.responseJson.symm.trans h
    cases hboth
  · intro e he
    have hboth := he.responseJson.symm.trans h
    cases hboth

/-- A document is an object or something else. -/
theorem answer_cases (py : Interp) (text : PyStr) :
    (∃ items, Document py text (.dict items)) ∨
    (∃ v, Document py text v ∧ v.isDict = false) ∨
    (∃ e, DecoderRaises py text e) ∨ responseJson py text = .ok none := by
  rcases responseJson_cases py text with ⟨v, hv⟩ | hrest
  · cases v with
    | dict items => exact .inl ⟨items, hv⟩
    | _ => exact .inr (.inl ⟨_, hv, rfl⟩)
  · exact .inr (.inr hrest)

/-! Of an answer that is an object only the score matters. -/

section Object

variable {items : List (PyStr × PyVal)}

theorem Document.isDict (h : Document py text (.dict items)) {v : PyVal}
    (hv : Document py text v) : v.isDict = true := by
  rw [hv.unique h]
  rfl

theorem cleanAnswer_of_object (h : Document py text (.dict items)) :
    CleanAnswer py text ↔ pyFloat (scoreOf items) ≠ .ok .nan ∧
      ∀ e, pyFloat (scoreOf items) = .error e → e.cls ≠ .overflowError := by
  refine ⟨fun hclean => hclean.score items h, fun hscore => ⟨not_decoderRaises h, fun v => h.isDict,
    fun items' h' => ?_⟩⟩
  rw [h.items_unique h']
  exact hscore

theorem scoredAnswer_of_object (h : Document py text (.dict items)) :
    ScoredAnswer py text ↔
      ∀ e, pyFloat (scoreOf items) = .error e → e.cls ≠ .overflowError := by
  refine ⟨fun hscored => hscored.score items h, fun hscore =>
    ⟨fun e he => absurd he (not_decoderRaises h e), fun v => h.isDict, fun items' h' => ?_⟩⟩
  rw [h.items_unique h']
  exact hscore

theorem parse_caught_of_object (h : Document py text (.dict items)) :
    (∀ e, parseJudgeResponse py text = .error e → e.caughtBy [.osError, .valueError] = true) ↔
      ∀ e, pyFloat (scoreOf items) = .error e → e.cls ≠ .overflowError := by
  have hparse := parse_of_document h
  rcases hscore : pyFloat (scoreOf items) with e | x
  · rw [hscore] at hparse
    dsimp only at hparse
    by_cases hcls : e.cls = .overflowError
    · rw [if_neg fun hcaught => (caughtBy_pyFloat hscore).mp hcaught hcls] at hparse
      refine iff_of_false (fun hcaught => ?_) fun h => h e rfl hcls
      have huncaught := hcaught e hparse
      rw [PyErr.caughtBy, hcls] at huncaught
      cases huncaught
    · rw [if_pos ((caughtBy_pyFloat hscore).mpr hcls)] at hparse
      refine iff_of_true (fun e' he' => ?_) fun e' he' => (Except.error.inj he') ▸ hcls
      rw [hparse] at he'
      cases he'
  · rw [hscore] at hparse
    refine iff_of_true (fun e' he' => ?_) (fun e' he' => ?_)
    · rw [hparse] at he'
      cases he'
    · cases he'

end Object

/-- **When an answer is parsed as promised.** -/
theorem parseJudgeResponse_robust_iff (py : Interp) (text : PyStr) :
    RobustlyParsed py text ↔ CleanAnswer py text := by
  rcases answer_cases py text with ⟨items, hv⟩ | ⟨v, hv, hdict⟩ | ⟨e, he⟩ | hnone
  · rw [parse_of_object hv, cleanAnswer_of_object hv]
  · refine iff_of_false ?_ fun h => ?_
    · rintro ⟨s, hs, -⟩
      rw [parse_of_not_dict hv hdict] at hs
      cases hs
    · rw [h.object v hv] at hdict
      cases hdict
  · refine iff_of_false ?_ fun h => h.decoder e he
    rintro ⟨s, hs, -⟩
    rw [parse_of_raised he] at hs
    cases hs
  · obtain ⟨hdocument, hdecoder⟩ := nothing_decoded hnone
    exact iff_of_true ⟨0, parse_of_none hnone, le_rfl, zero_le_one, fun _ => rfl⟩
      ⟨hdecoder, fun v hv => absurd hv (hdocument v), fun items hv => absurd hv (hdocument _)⟩

/-- What `score_steps` catches of an answer. -/
theorem parse_caught_iff (py : Interp) (text : PyStr) :
    (∀ e, parseJudgeResponse py text = .error e → e.caughtBy [.osError, .valueError] = true) ↔
      ScoredAnswer py text := by
  rcases answer_cases py text with ⟨items, hv⟩ | ⟨v, hv, hdict⟩ | ⟨e, he⟩ | hnone
  · rw [parse_caught_of_object hv, scoredAnswer_of_object hv]
  · refine iff_of_false (fun hcaught => ?_) fun h => ?_
    · have huncaught : false = true := hcaught _ (parse_of_not_dict hv hdict)
      cases huncaught
    · rw [h.object v hv] at hdict
      cases hdict
  · rw [parse_of_raised he]
    have hcls : e.cls = .valueError ∨ e.cls = .recursionError := by
      obtain ⟨h, he⟩ | ⟨-, -, -, h, he⟩ := he
      · exact (loads_error_cls h).resolve_left he
      · exact (loads_error_cls h).resolve_left he
    have hcaught : e.caughtBy [.osError, .valueError] = true ↔ e.cls ≠ .recursionError := by
      rw [PyErr.caughtBy]
      rcases hcls with h | h
      · rw [h]
        decide
      · rw [h]
        decide
    constructor
    · refine fun h => ⟨fun e' he' => ?_, fun v hv => absurd he (not_decoderRaises hv e),
        fun items hv => absurd he (not_decoderRaises hv e)⟩
      obtain rfl := Except.error.inj (he.responseJson.symm.trans he'.responseJson)
      exact hcaught.mp (h e rfl)
    · exact fun h e' he' => (Except.error.inj he') ▸ hcaught.mpr (h.decoder e he)
  · obtain ⟨hdocument, hdecoder⟩ := nothing_decoded hnone
    rw [parse_of_none hnone]
    refine iff_of_true ?_ ⟨fun e he => absurd he (hdecoder e),
      fun v hv => absurd hv (hdocument v), fun items hv => absurd hv (hdocument _)⟩
    rintro e he
    cases he

theorem parse_mem {s : ℚ} (h : parseJudgeResponse py text = .ok s) : 0 ≤ s ∧ s ≤ 1 := by
  rw [parseJudgeResponse] at h
  obtain ⟨document, -, h⟩ := bind_eq_ok.mp h
  cases document with
  | none =>
    cases h
    exact ⟨le_rfl, zero_le_one⟩
  | some data =>
    obtain ⟨score, -, h⟩ := bind_eq_ok.mp h
    rcases hx : pyFloat score with e | x
    · rw [hx] at h
      dsimp only at h
      split at h
      · cases h
        exact ⟨le_rfl, zero_le_one⟩
      · cases h
    · rw [hx] at h
      cases h
      exact clamp01_mem x

end Answers

/-! ### The scores of the steps -/

section Scores

variable {py : Interp} {judge : Judge} {config : JudgeConfig} {taskId : PyStr} {prompt : Prompt}

theorem sample_mem {k : ℕ} {s : ℚ} (h : sample py judge prompt k = .ok s) : 0 ≤ s ∧ s ≤ 1 := by
  rw [sample] at h
  rcases hparse : judge k prompt >>= parseJudgeResponse py with e | s'
  · rw [hparse] at h
    dsimp only at h
    split at h
    · cases h
      exact ⟨le_rfl, zero_le_one⟩
    · cases h
  · rw [hparse] at h
    cases h
    obtain ⟨text, -, htext⟩ := bind_eq_ok.mp hparse
    exact parse_mem htext

/-- `score_steps` can use what the judge does in a call. -/
structure Usable (py : Interp) (judge : Judge) (call : ℕ × Prompt) : Prop where
  failure : ∀ e, judge call.1 call.2 = .error e → e.caughtBy [.osError, .valueError] = true
  answer : ∀ text, judge call.1 call.2 = .ok text → ScoredAnswer py text

/-- A judge fails only in the ways that `score_steps` catches. -/
def Reachable (judge : Judge) : Prop :=
  ∀ k prompt e, judge k prompt = .error e → e.caughtBy [.osError, .valueError] = true

theorem Reachable.usable_iff (hj : Reachable judge) (call : ℕ × Prompt) :
    Usable py judge call ↔ ∀ text, judge call.1 call.2 = .ok text → ScoredAnswer py text :=
  ⟨Usable.answer, fun h => ⟨hj call.1 call.2, h⟩⟩

theorem sample_ok_iff (py : Interp) (judge : Judge) (prompt : Prompt) (k : ℕ) :
    (∃ s, sample py judge prompt k = .ok s) ↔ Usable py judge (k, prompt) := by
  rw [sample]
  rcases hjudge : judge k prompt with e | text
  · show (∃ s, (if e.caughtBy [.osError, .valueError] then _ else _) = _) ↔ _
    constructor
    · rintro ⟨s, hs⟩
      split at hs
      · next hcaught =>
        refine ⟨fun e' he' => ?_, fun text htext => ?_⟩
        · exact Except.error.inj (hjudge.symm.trans he') ▸ hcaught
        · cases hjudge.symm.trans htext
      · cases hs
    · exact fun h => ⟨0, if_pos (h.failure e hjudge)⟩
  · have husable : Usable py judge (k, prompt) ↔
        ∀ e, parseJudgeResponse py text = .error e → e.caughtBy [.osError, .valueError] = true := by
      rw [parse_caught_iff]
      refine ⟨fun h => h.answer text hjudge, fun h => ⟨fun e he => ?_, fun text' htext => ?_⟩⟩
      · cases hjudge.symm.trans he
      · exact Except.ok.inj (hjudge.symm.trans htext) ▸ h
    have hbind : (Except.ok text >>= parseJudgeResponse py) = parseJudgeResponse py text := rfl
    rw [husable, hbind]
    rcases hparse : parseJudgeResponse py text with e | s
    · constructor
      · rintro ⟨s, hs⟩ e' he'
        obtain rfl := Except.error.inj he'
        dsimp only at hs
        split at hs
        · next hcaught => exact hcaught
        · cases hs
      · exact fun h => ⟨0, if_pos (h e rfl)⟩
    · refine iff_of_true ⟨s, rfl⟩ ?_
      rintro e he
      cases he

theorem samples_ok_iff (py : Interp) (judge : Judge) (prompt : Prompt) (n : ℕ) : ∀ k,
    (∃ drawn, samples py judge prompt k n = .ok drawn) ↔
      ∀ j ∈ List.range' k n, Usable py judge (j, prompt) := by
  induction n with
  | zero => exact fun k => iff_of_true ⟨[], rfl⟩ nofun
  | succ n ih =>
    intro k
    rw [samples, List.range'_succ, List.forall_mem_cons, ← sample_ok_iff, ← ih (k + 1)]
    rcases sample py judge prompt k with e | s
    · refine iff_of_false ?_ ?_
      · rintro ⟨drawn, hdrawn⟩
        cases hdrawn
      · rintro ⟨⟨s, hs⟩, -⟩
        cases hs
    · show (∃ drawn, (samples py judge prompt (k + 1) n).map (s :: ·) = .ok drawn) ↔ _
      rw [exists_map_eq_ok]
      exact ⟨fun h => ⟨⟨s, rfl⟩, h⟩, And.right⟩

theorem samples_mem {n : ℕ} : ∀ {k : ℕ} {drawn : List ℚ}, samples py judge prompt k n = .ok drawn →
    ∀ s ∈ drawn, 0 ≤ s ∧ s ≤ 1 := by
  induction n with
  | zero =>
    intro k drawn h
    cases h
    exact nofun
  | succ n ih =>
    intro k drawn h
    obtain ⟨s, hs, h⟩ := bind_eq_ok.mp h
    obtain ⟨ss, hss, rfl⟩ := map_eq_ok.mp h
    exact List.forall_mem_cons.mpr ⟨sample_mem hs, ih hss⟩

/-- The judge calls that `score_steps` makes: their number and their prompt. A step whose key is
cached is not judged. -/
def askedCalls (py : Interp) (config : JudgeConfig) (taskId : PyStr) (keys : List PyStr) (k : ℕ) :
    List Step → List (ℕ × Prompt)
  | [] => []
  | step :: steps =>
    let key := py.md5 (stepCacheText py taskId step config.max_step_chars)
    let prompt := buildStepPrompt py taskId step (getRubric config.domain) config.max_step_chars
    let n := effectiveNSamples config
    if key ∈ keys then askedCalls py config taskId keys k steps
    else (List.range' k n).map (·, prompt) ++ askedCalls py config taskId (key :: keys)
      (k + n) steps

theorem mem_keys_iff {cache : List (PyStr × ℚ)} {key : PyStr} :
    key ∈ cache.map Prod.fst ↔ ∃ value, cache.lookup key = some value := by
  rw [← Option.isSome_iff_exists, List.mem_map, List.lookup_isSome_iff]
  constructor
  · rintro ⟨p, hp, rfl⟩
    exact ⟨p, hp, beq_self_eq_true _⟩
  · rintro ⟨p, hp, hkey⟩
    exact ⟨p, hp, (beq_iff_eq.mp hkey).symm⟩

/-- Scoring completes exactly when every step has a cache key and every call can be used. -/
theorem scoreSteps_completes_iff (steps : List Step) :
    ∀ (cache : List (PyStr × ℚ)) (k : ℕ),
      (∃ r, scoreSteps py judge config taskId cache k steps = .ok r) ↔
        (∀ step ∈ steps, encodable (stepCacheText py taskId step config.max_step_chars) = true) ∧
        ∀ call ∈ askedCalls py config taskId (cache.map Prod.fst) k steps,
          Usable py judge call := by
  induction steps with
  | nil =>
    exact fun cache k => iff_of_true ⟨([], k), rfl⟩ ⟨List.forall_mem_nil _, List.forall_mem_nil _⟩
  | cons step steps ih =>
    intro cache k
    rw [List.forall_mem_cons, ← stepCacheKey_ok_iff, scoreSteps, askedCalls]
    rcases hkey : stepCacheKey py taskId step config.max_step_chars with e | key
    · refine iff_of_false ?_ ?_
      · rintro ⟨r, hr⟩
        cases hr
      · rintro ⟨⟨⟨key, hkey'⟩, -⟩, -⟩
        cases hkey'
    · have hmd5 : py.md5 (stepCacheText py taskId step config.max_step_chars) = key := by
        rw [stepCacheKey] at hkey
        split at hkey
        · exact Except.ok.inj hkey
        · cases hkey
      rw [ok_bind, hmd5]
      rcases hentry : cache.lookup key with _ | value
      · have hmem : key ∉ cache.map Prod.fst := by
          rw [mem_keys_iff, hentry]
          rintro ⟨value, hvalue⟩
          cases hvalue
        rw [if_neg hmem, List.forall_mem_append, List.forall_mem_map, ← samples_ok_iff]
        dsimp only
        rcases hsamples : samples py judge
          (buildStepPrompt py taskId step (getRubric config.domain) config.max_step_chars) k
          (effectiveNSamples config) with e | drawn
        · refine iff_of_false ?_ ?_
          · rintro ⟨r, hr⟩
            cases hr
          · rintro ⟨-, ⟨drawn, hdrawn⟩, -⟩
            cases hdrawn
        · let value : ℚ := if drawn.isEmpty then 0 else drawn.sum / drawn.length
          show (∃ r, (scoreSteps py judge config taskId ((key, value) :: cache)
            (k + effectiveNSamples config) steps).map _ = .ok r) ↔ _
          rw [exists_map_eq_ok, ih]
          exact ⟨fun h => ⟨⟨⟨key, rfl⟩, h.1⟩, ⟨drawn, rfl⟩, h.2⟩, fun h => ⟨h.1.2, h.2.2⟩⟩
      · have hmem : key ∈ cache.map Prod.fst := mem_keys_iff.mpr ⟨value, hentry⟩
        rw [if_pos hmem, exists_map_eq_ok, ih cache k]
        exact ⟨fun h => ⟨⟨⟨key, rfl⟩, h.1⟩, h.2⟩, fun h => ⟨h.1.2, h.2⟩⟩

theorem scoreSteps_mem {steps : List Step} :
    ∀ {cache : List (PyStr × ℚ)} {k k' : ℕ} {scores : List ℚ},
    (∀ p ∈ cache, 0 ≤ p.2 ∧ p.2 ≤ 1) →
    scoreSteps py judge config taskId cache k steps = .ok (scores, k') →
      scores.length = steps.length ∧ ∀ s ∈ scores, 0 ≤ s ∧ s ≤ 1 := by
  induction steps with
  | nil =>
    intro cache k k' scores _ h
    cases h
    exact ⟨rfl, nofun⟩
  | cons step steps ih =>
    intro cache k k' scores hcache h
    rw [scoreSteps] at h
    obtain ⟨key, hkey, h⟩ := bind_eq_ok.mp h
    rcases hentry : cache.lookup key with _ | value
    · rw [hentry] at h
      dsimp only at h
      obtain ⟨drawn, hdrawn, h⟩ := bind_eq_ok.mp h
      obtain ⟨⟨rest, k''⟩, hrest, hr⟩ := map_eq_ok.mp h
      obtain ⟨rfl, -⟩ := Prod.mk.inj hr
      have hvalue : 0 ≤ (if drawn.isEmpty then 0 else drawn.sum / drawn.length) ∧
          (if drawn.isEmpty then 0 else drawn.sum / drawn.length) ≤ (1 : ℚ) := by
        split
        · exact ⟨le_rfl, zero_le_one⟩
        · exact clamped_mean_mem (samples_mem hdrawn)
      have hcache' : ∀ p ∈ (key, if drawn.isEmpty then 0 else drawn.sum / drawn.length) :: cache,
          0 ≤ p.2 ∧ p.2 ≤ (1 : ℚ) := List.forall_mem_cons.mpr ⟨hvalue, hcache⟩
      obtain ⟨hlength, hmem⟩ := ih hcache' hrest
      exact ⟨congrArg (· + 1) hlength, List.forall_mem_cons.mpr ⟨hvalue, hmem⟩⟩
    · rw [hentry] at h
      obtain ⟨⟨rest, k''⟩, hrest, hr⟩ := map_eq_ok.mp h
      obtain ⟨rfl, -⟩ := Prod.mk.inj hr
      obtain ⟨hlength, hmem⟩ := ih hcache hrest
      have hvalue : 0 ≤ value ∧ value ≤ 1 := by
        obtain ⟨before, after, rfl, -⟩ := List.lookup_eq_some_iff.mp hentry
        exact hcache (key, value) (by simp)
      exact ⟨congrArg (· + 1) hlength, List.forall_mem_cons.mpr ⟨hvalue, hmem⟩⟩

/-- **When scoring keeps its promise**: one score of `[0, 1]` for each step, of a judge that cannot
fail in other ways than the two that are caught. -/
theorem scoreSteps_scored_iff (hj : Reachable judge) (steps : List Step) (cache : List (PyStr × ℚ))
    (hcache : ∀ p ∈ cache, 0 ≤ p.2 ∧ p.2 ≤ 1) (k : ℕ) :
    (∃ scores k', scoreSteps py judge config taskId cache k steps = .ok (scores, k') ∧
        scores.length = steps.length ∧ ∀ s ∈ scores, 0 ≤ s ∧ s ≤ 1) ↔
      (∀ step ∈ steps, encodable (stepCacheText py taskId step config.max_step_chars) = true) ∧
      ∀ call ∈ askedCalls py config taskId (cache.map Prod.fst) k steps,
        ∀ text, judge call.1 call.2 = .ok text → ScoredAnswer py text := by
  simp only [← hj.usable_iff]
  rw [← scoreSteps_completes_iff]
  constructor
  · rintro ⟨scores, k', h, -⟩
    exact ⟨_, h⟩
  · rintro ⟨⟨scores, k'⟩, h⟩
    exact ⟨scores, k', h, scoreSteps_mem hcache h⟩

end Scores

/-- **Robust judge parsing**: exactly the clean answers are parsed as promised, and exactly the runs
in which every asked answer can be used are scored. -/
theorem judge_parsing_robust_iff (py : Interp) :
    (∀ text, RobustlyParsed py text ↔ CleanAnswer py text) ∧
    ∀ (judge : Judge) (config : JudgeConfig) (taskId : PyStr) (steps : List Step)
      (cache : List (PyStr × ℚ)) (k : ℕ), Reachable judge → (∀ p ∈ cache, 0 ≤ p.2 ∧ p.2 ≤ 1) →
      ((∃ scores k', scoreSteps py judge config taskId cache k steps = .ok (scores, k') ∧
          scores.length = steps.length ∧ ∀ s ∈ scores, 0 ≤ s ∧ s ≤ 1) ↔
        (∀ step ∈ steps, encodable (stepCacheText py taskId step config.max_step_chars) = true) ∧
        ∀ call ∈ askedCalls py config taskId (cache.map Prod.fst) k steps,
          ∀ text, judge call.1 call.2 = .ok text → ScoredAnswer py text) :=
  ⟨parseJudgeResponse_robust_iff py,
    fun _ _ _ steps cache k hj hcache => scoreSteps_scored_iff hj steps cache hcache k⟩

def sampleStep : Step := ⟨"I will book it.", [], []⟩

/-- The first answer is an object, the second one is text around an object. -/
def answeringJudge : Judge := fun k _ =>
  .ok (if k = 0 then "\x7b\"score\": 0.25\x7d" else "Score: \x7b\"score\": 7\x7d.")

/-- The second answer is parsed, and both steps are scored. -/
theorem judge_parsing_robust_sample :
    RobustlyParsed .silent "Score: \x7b\"score\": 7\x7d." ∧
    ∃ scores k, scoreSteps .silent answeringJudge {} "1" [] 0 [sampleStep, ⟨"It is booked.", [], []⟩] =
        .ok (scores, k) ∧
      scores.length = 2 ∧ ∀ s ∈ scores, 0 ≤ s ∧ s ≤ 1 := by
  obtain ⟨hparse, hscore⟩ := judge_parsing_robust_iff .silent
  constructor
  · have hspan : braceSpan "Score: \x7b\"score\": 7\x7d." = some "\x7b\"score\": 7\x7d" := by
      decide +kernel
    have hdocument : Document .silent "Score: \x7b\"score\": 7\x7d." (.dict [("score", .int 7)]) :=
      .braces (e := ⟨.jsonDecodeError, "Expecting value"⟩) (by decide +kernel) rfl hspan
        (by decide +kernel)
    have hfloat : pyFloat (scoreOf [("score", .int 7)]) = .ok (.fin 7) := by decide +kernel
    refine (hparse _).mpr ((cleanAnswer_of_object hdocument).mpr ?_)
    rw [hfloat]
    refine ⟨fun h => ?_, fun e he => ?_⟩
    · cases Except.ok.inj h
    · cases he
  · refine (hscore answeringJudge {} "1" _ [] 0 ?_ (List.forall_mem_nil _)).mpr
      ⟨by decide +kernel, fun call _ text htext => ?_⟩
    · rintro k prompt e h
      cases h
    · refine (parse_caught_iff .silent text).mp fun e he => ?_
      have hanswers : ∀ b : Bool, (parseJudgeResponse .silent
          (if b then "\x7b\"score\": 0.25\x7d" else "Score: \x7b\"score\": 7\x7d.")).isOk =
            true := by
        decide +kernel
      have hok := hanswers (decide (call.1 = 0))
      simp only [decide_eq_true_eq] at hok
      rw [Except.ok.inj htext, he] at hok
      cases hok

/-- An answer that is a JSON list raises, also out of `score_steps`. A score of `NaN` is worth
`1`. -/
theorem judge_parsing_not_robust :
    ¬RobustlyParsed .silent "[\x7b\"score\": 0.5\x7d]" ∧
    (¬∃ r, scoreSteps .silent (fun _ _ => .ok "[\x7b\"score\": 0.5\x7d]") {} "1" [] 0 [sampleStep] =
      .ok r) ∧
    parseJudgeResponse .silent "\x7b\"score\": NaN\x7d" = .ok 1 ∧
    ¬RobustlyParsed .silent "\x7b\"score\": NaN\x7d" := by
  have hlist : parseJudgeResponse .silent "[\x7b\"score\": 0.5\x7d]" =
      .error ⟨.attributeError, "'list' object has no attribute 'get'"⟩ := by decide +kernel
  have hscore : scoreSteps .silent (fun _ _ => .ok "[\x7b\"score\": 0.5\x7d]") {} "1" [] 0
      [sampleStep] = .error ⟨.attributeError, "'list' object has no attribute 'get'"⟩ := by
    decide +kernel
  have hnan : parseJudgeResponse .silent "\x7b\"score\": NaN\x7d" = .ok 1 := by decide +kernel
  have hdocument : Document .silent "\x7b\"score\": NaN\x7d" (.dict [("score", .float .nan)]) :=
    .whole (by decide +kernel)
  refine ⟨?_, ?_, hnan, ?_⟩
  · rintro ⟨s, hs, -⟩
    rw [hlist] at hs
    cases hs
  · rintro ⟨r, hr⟩
    rw [hscore] at hr
    cases hr
  · rintro ⟨s, hs, -, -, hzero⟩
    rw [hnan] at hs
    obtain rfl : 1 = s := Except.ok.inj hs
    refine one_ne_zero (hzero ?_)
    rintro ⟨items, hitems, score, x, hlookup, hx, hne⟩
    rw [hdocument.items_unique hitems] at hlookup
    rw [List.lookup_cons_self, Option.some.injEq] at hlookup
    rw [← hlookup] at hx
    exact hne (Except.ok.inj hx).symm

/-! ### The cache -/

section Cache

variable (py : Interp) (judge : Judge) (config : JudgeConfig)

/-- `score_steps` with a cache that the caller keeps: the scores, and the cache and the number of
judge calls after them. -/
def scoreStepsCached (taskId : PyStr) (cache : List (PyStr × ℚ)) (k : ℕ) :
    List Step → Except PyErr (List ℚ × List (PyStr × ℚ) × ℕ)
  | [] => .ok ([], cache, k)
  | step :: steps => do
    let key ← stepCacheKey py taskId step config.max_step_chars
    match cache.lookup key with
    | some value =>
      (scoreStepsCached taskId cache k steps).map fun r => (value :: r.1, r.2)
    | none =>
      let prompt := buildStepPrompt py taskId step (getRubric config.domain) config.max_step_chars
      let n := effectiveNSamples config
      let drawn ← samples py judge prompt k n
      let value := if drawn.isEmpty then 0 else drawn.sum / drawn.length
      (scoreStepsCached taskId ((key, value) :: cache) (k + n) steps).map fun r =>
        (value :: r.1, r.2)

/-- The calls of `score_steps` of a run, with one cache: a task and its steps each. -/
def judgeRun (cache : List (PyStr × ℚ)) (k : ℕ) :
    List (PyStr × List Step) → Except PyErr (List (List ℚ))
  | [] => .ok []
  | (taskId, steps) :: calls => do
    let (scores, cache, k) ← scoreStepsCached py judge config taskId cache k steps
    (judgeRun cache k calls).map (scores :: ·)

/-- The scores are those of `score_steps`. -/
theorem scoreSteps_eq_cached (taskId : PyStr) (steps : List Step) :
    ∀ (cache : List (PyStr × ℚ)) (k : ℕ),
      scoreSteps py judge config taskId cache k steps =
        (scoreStepsCached py judge config taskId cache k steps).map fun r => (r.1, r.2.2) := by
  induction steps with
  | nil => exact fun cache k => rfl
  | cons step steps ih =>
    intro cache k
    rw [scoreSteps, scoreStepsCached]
    rcases stepCacheKey py taskId step config.max_step_chars with e | key
    · rfl
    · show (match cache.lookup key with | some value => _ | none => _) =
        Except.map _ (match cache.lookup key with | some value => _ | none => _)
      rcases cache.lookup key with _ | value
      · dsimp only
        rcases samples py judge (buildStepPrompt py taskId step (getRubric config.domain)
          config.max_step_chars) k (effectiveNSamples config) with e | drawn
        · rfl
        · show Except.map _ (scoreSteps py judge config taskId _ _ steps) = _
          rw [ih]
          show _ = Except.map _ (Except.map _ (scoreStepsCached py judge config taskId _ _ steps))
          rcases scoreStepsCached py judge config taskId _ _ steps with e | r
          · rfl
          · rfl
      · dsimp only
        rw [ih]
        rcases scoreStepsCached py judge config taskId cache k steps with e | r
        · rfl
        · rfl

end Cache

section Transparent

variable (py : Interp) (judge : Prompt → Except PyErr PyStr) (config : JudgeConfig)

/-- `build_step_prompt` of a step of a task. -/
def promptOf (x : PyStr × Step) : Prompt :=
  buildStepPrompt py x.1 x.2 (getRubric config.domain) config.max_step_chars

def keyOf (x : PyStr × Step) : Except PyErr PyStr := stepCacheKey py x.1 x.2 config.max_step_chars

/-- The parsed answer of a judge that depends on the prompt alone. -/
def judgeAnswer (prompt : Prompt) : Except PyErr ℚ := sample py (fun _ => judge) prompt 0

variable {py judge config}

/-- One sample of the answer is the answer. -/
theorem samples_one (prompt : Prompt) (k : ℕ) :
    samples py (fun _ => judge) prompt k 1 = (judgeAnswer py judge prompt).map ([·]) := by
  show (sample py (fun _ => judge) prompt k >>= fun s => _) = _
  rw [show sample py (fun _ => judge) prompt k = judgeAnswer py judge prompt from rfl]
  rcases judgeAnswer py judge prompt with e | s
  · rfl
  · rfl

theorem scoreStepsCached_eq_run (hn : effectiveNSamples config = 1) (taskId : PyStr)
    (steps : List Step) : ∀ (cache : List (PyStr × ℚ)) (k : ℕ),
      (scoreStepsCached py (fun _ => judge) config taskId cache k steps).map
        (fun r => (r.1, r.2.1)) =
        Memo.run (keyOf py config) (fun x => judgeAnswer py judge (promptOf py config x)) cache
          (steps.map (taskId, ·)) := by
  induction steps with
  | nil => exact fun cache k => rfl
  | cons step steps ih =>
    intro cache k
    rw [scoreStepsCached, List.map_cons, Memo.run, Memo.step, keyOf, hn]
    dsimp only
    rw [samples_one]
    rcases stepCacheKey py taskId step config.max_step_chars with e | key
    · rfl
    · rw [ok_bind, ok_bind]
      rcases cache.lookup key with _ | value
      · dsimp only
        rw [show buildStepPrompt py taskId step (getRubric config.domain) config.max_step_chars =
          promptOf py config (taskId, step) from rfl]
        rcases judgeAnswer py judge (promptOf py config (taskId, step)) with e | s
        · rfl
        · have hvalue : (if [s].isEmpty then 0 else [s].sum / ([s].length : ℚ)) = s := by simp
          show Except.map _ (Except.map _ (scoreStepsCached py (fun _ => judge) config taskId
            ((key, if [s].isEmpty then 0 else [s].sum / ([s].length : ℚ)) :: cache)
              (k + 1) steps)) =
              (Memo.run _ _ ((key, s) :: cache) _ >>= _)
          rw [hvalue, ← ih ((key, s) :: cache) (k + 1)]
          rcases scoreStepsCached py (fun _ => judge) config taskId ((key, s) :: cache)
            (k + 1) steps
            with e | r
          · rfl
          · rfl
      · show _ = (Memo.run _ _ cache _ >>= _)
        rw [← ih cache k]
        rcases scoreStepsCached py (fun _ => judge) config taskId cache k steps with e | r
        · rfl
        · rfl

theorem judgeRun_eq_runAll (hn : effectiveNSamples config = 1) (calls : List (PyStr × List Step)) :
    ∀ (cache : List (PyStr × ℚ)) (k : ℕ),
      judgeRun py (fun _ => judge) config cache k calls =
        (Memo.runAll (keyOf py config) (fun x => judgeAnswer py judge (promptOf py config x)) cache
          (calls.map fun c => c.2.map (c.1, ·))).map Prod.fst := by
  induction calls with
  | nil => exact fun cache k => rfl
  | cons call calls ih =>
    intro cache k
    rw [judgeRun, List.map_cons, Memo.runAll, ← scoreStepsCached_eq_run hn call.1 call.2 cache k]
    rcases scoreStepsCached py (fun _ => judge) config call.1 cache k call.2 with
      e | ⟨scores, cache', k'⟩
    · rfl
    · let result := Memo.runAll (keyOf py config)
        (fun x => judgeAnswer py judge (promptOf py config x)) cache'
        (calls.map fun c => c.2.map (c.1, ·))
      show Except.map _ (judgeRun py (fun _ => judge) config cache' k' calls) =
        Except.map Prod.fst (result >>= fun r => .ok (scores :: r.1, r.2))
      rw [ih, show Memo.runAll _ _ cache' _ = result from rfl]
      rcases result with e | r
      · rfl
      · rfl

theorem keyOf_eq_ok {x : PyStr × Step} {key : PyStr} :
    keyOf py config x = .ok key ↔
      encodable (stepCacheText py x.1 x.2 config.max_step_chars) = true ∧
        py.md5 (stepCacheText py x.1 x.2 config.max_step_chars) = key := by
  rw [keyOf, stepCacheKey]
  split
  · next h => exact ⟨fun hkey => ⟨h, Except.ok.inj hkey⟩, fun hkey => congrArg Except.ok hkey.2⟩
  · next h =>
    refine ⟨fun hkey => ?_, fun hkey => absurd hkey.1 h⟩
    cases hkey

/-- **When the cache is transparent.** A run of `score_steps` calls returns. Each step is given the
answer for its own prompt exactly when the judge answers steps with the same cache text alike. -/
theorem judgeRun_transparent_iff (hmd5 : Function.Injective py.md5)
    (hn : effectiveNSamples config = 1) {calls : List (PyStr × List Step)} {scores : List (List ℚ)}
    (hreturns : judgeRun py (fun _ => judge) config [] 0 calls = .ok scores) :
    List.Forall₂ (fun (c : PyStr × List Step) s => List.Forall₂ (fun step score =>
        judgeAnswer py judge (promptOf py config (c.1, step)) = .ok score) c.2 s) calls scores ↔
      ∀ c ∈ calls, ∀ step ∈ c.2, ∀ c' ∈ calls, ∀ step' ∈ c'.2,
        stepCacheText py c.1 step config.max_step_chars =
            stepCacheText py c'.1 step' config.max_step_chars →
          judgeAnswer py judge (promptOf py config (c.1, step)) =
            judgeAnswer py judge (promptOf py config (c'.1, step')) := by
  rw [judgeRun_eq_runAll hn] at hreturns
  obtain ⟨⟨scores', table⟩, hrun, rfl⟩ := map_eq_ok.mp hreturns
  have htransparent := Memo.runAll_transparent_iff hrun
  simp only [List.forall₂_map_left_iff] at htransparent
  let inputs := (calls.map fun c => c.2.map (c.1, ·)).flatten
  have hmem : ∀ x, x ∈ inputs ↔ ∃ c ∈ calls, ∃ step ∈ c.2, (c.1, step) = x := by
    intro x
    simp only [inputs, List.mem_flatten, List.mem_map, exists_exists_and_eq_and]
  refine htransparent.trans ⟨fun hdet c hc step hstep c' hc' step' hstep' htext => ?_,
    fun hsame x hx y hy key hkey hkey' => ?_⟩
  · have hx : (c.1, step) ∈ inputs := (hmem _).mpr ⟨c, hc, step, hstep, rfl⟩
    have hy : (c'.1, step') ∈ inputs := (hmem _).mpr ⟨c', hc', step', hstep', rfl⟩
    obtain ⟨-, key, hkey, -⟩ := Memo.runAll_holds hrun _ hx
    refine hdet _ hx _ hy key hkey (keyOf_eq_ok.mpr ?_)
    rw [← htext]
    exact keyOf_eq_ok.mp hkey
  · obtain ⟨c, hc, step, hstep, rfl⟩ := (hmem x).mp hx
    obtain ⟨c', hc', step', hstep', rfl⟩ := (hmem y).mp hy
    refine hsame c hc step hstep c' hc' step' hstep' (hmd5 ?_)
    rw [(keyOf_eq_ok.mp hkey).2, (keyOf_eq_ok.mp hkey').2]

end Transparent

/-- A judge that likes what was found. -/
def sampleJudge (prompt : Prompt) : Except PyErr PyStr :=
  .ok (if isSubstr "nothing" prompt.user then "\x7b\"score\": 0\x7d" else "\x7b\"score\": 1\x7d")

/-- The same lookup with two results. -/
def lookupStep (observation : PyStr) : Step := ⟨"Let me look it up.", [], [observation]⟩

/-- A step that is looked up a second time, and a step of another task. The judge is asked twice. -/
theorem judgeRun_transparent_sample :
    scoreSteps .silent (fun _ => sampleJudge) {} "1" [] 0 [lookupStep "nothing",
      lookupStep "nothing"] =
      .ok ([0, 0], 1) ∧
    List.Forall₂ (fun (c : PyStr × List Step) s => List.Forall₂ (fun step score =>
        judgeAnswer .silent sampleJudge (promptOf .silent {} (c.1, step)) = .ok score) c.2 s)
      [("1", [lookupStep "nothing", lookupStep "nothing"]), ("2", [lookupStep "one flight"])]
      [[0, 0], [1]] := by
  have hreturns : judgeRun .silent (fun _ => sampleJudge) {} [] 0
      [("1", [lookupStep "nothing", lookupStep "nothing"]), ("2", [lookupStep "one flight"])] =
        .ok [[0, 0], [1]] := by
    decide +kernel
  refine ⟨by decide +kernel,
    (judgeRun_transparent_iff Function.injective_id (by decide +kernel) hreturns).mpr ?_⟩
  simp only [List.forall_mem_cons, List.not_mem_nil, false_implies, implies_true, and_true]
  decide +kernel

/-- The second step is given the score of the first, although the judge would have scored it
differently. -/
theorem judgeRun_not_transparent :
    Function.Injective Interp.silent.md5 ∧ effectiveNSamples {} = 1 ∧
    judgeRun .silent (fun _ => sampleJudge) {} [] 0
      [("1", [lookupStep "nothing", lookupStep "one flight"])] = .ok [[0, 0]] ∧
    judgeAnswer .silent sampleJudge (promptOf .silent {} ("1", lookupStep "one flight")) =
      .ok 1 := by
  exact ⟨Function.injective_id, by decide +kernel, by decide +kernel, by decide +kernel⟩

end LlmJudge

end ToolAgent
