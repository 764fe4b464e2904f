import ToolAgent.Library.Dialogue
import ToolAgent.Sft.Rollout
import Mathlib.Data.List.Nodup

/-!
# Transcripts of the teacher

The messages of a trajectory as a dialogue. An assistant message lists tool calls, each under an id,
and a tool message answers to an id.

`run_teacher_rollout` appends the assistant message as it was received and executes the first of its
calls. What is listed after it is never answered. The sibling `run_single_task` of
`toolagent.evaluation` executes all of the calls, and the agents of tau-bench cut the recorded
message to the first.

Turns that raise are not completed, but a trajectory with such a turn has no success: nothing raises
once the reward of a step is set.

## Main definitions

* `listedCalls`, `askedIds`, `answeredId` — the dialogue of a transcript
* `TurnOutcome` — what a turn can do
* `OneCallEach` — no turn was answered with two calls

## Main results

* `turnLoop_success` — a successful transcript is written round by round
* `transcript_paired_iff` — when it is a dialogue in which every call is answered
-/

namespace ToolAgent

namespace Collect

open Python Prog Policy TauBench Dialogue

/-! ### The dialogue -/

/-- The tool calls that a message lists. -/
def listedCalls (message : Message) : List PyVal :=
  match dictGet message "tool_calls" with
  | .list calls => calls
  | _ => []

/-- The `id` of a tool call. -/
def idOf : PyVal → PyVal
  | .dict items => dictGet items "id"
  | _ => .null

def askedIds (message : Message) : List PyVal := (listedCalls message).map idOf

/-- The `tool_call_id` of a tool message. -/
def answeredId (message : Message) : Option PyVal :=
  if dictGet message "role" = .str "tool" then some (dictGet message "tool_call_id") else none

/-- Every tool call carries its own id. -/
structure OwnIds (message : Message) : Prop where
  carries : ∀ call ∈ listedCalls message, ∃ items id,
    call = .dict items ∧ items.lookup ("id" : PyStr) = some id
  own : (askedIds message).Nodup

/-- The answer of the teacher in a turn, as it is recorded. -/
def teacherAnswer (b : Behaviour) (turn : ℕ) (request : List Message) : Except PyErr Message :=
  b.teacher turn request >>= readAssistant

/-- No turn was answered with two tool calls. -/
def OneCallEach (b : Behaviour) (turns : List Turn) : Prop :=
  ∀ p ∈ turns.zipIdx, ∀ assistant, teacherAnswer b p.2 p.1.request = .ok assistant →
    (listedCalls assistant).length ≤ 1

/-! ### One turn -/

/-- What follows an assistant message in a turn that is completed: the answer to its first call, or
what the user says. -/
inductive Tail (assistant : Message) : List Message → Prop
  | called {call : PyVal} {calls : List PyVal} (name : PyVal) (content : PyStr)
      (h : listedCalls assistant = call :: calls) :
      Tail assistant [toolMessage (idOf call) name content]
  | replied (tail : List Message) (h : listedCalls assistant = [])
      (htail : ∀ m ∈ tail, isAssistant m = false ∧ answeredId m = none) : Tail assistant tail

/-- What a turn can do from a state: raise before a reward is set, or complete a round. -/
inductive TurnOutcome (b : Behaviour) (turn : ℕ) (s : State) : Except PyErr Bool × State → Prop
  | raised {e : PyErr} {s' : State} (h : s'.reward = s.reward) : TurnOutcome b turn s (.error e, s')
  | completed {stop : Bool} {s' : State} {request : List Message} {assistant : Message}
      {tail : List Message} (hanswer : teacherAnswer b turn request = .ok assistant)
      (htail : Tail assistant tail) (hmessages : s'.messages = s.messages ++ assistant :: tail)
      (hturns : s'.turns = s.turns ++ [⟨s.messages, request⟩])
      (hstop : stop = false → atLeastOne s'.reward = false) : TurnOutcome b turn s (.ok stop, s')

section Turn

variable {py : Interp} {args : Args} {b : Behaviour} {s : State}

/-- What a tool call can do. -/
inductive CallOutcome (tc : PyVal) (s : State) : Except PyErr Bool × State → Prop
  | raised {e : PyErr} {s' : State} (h : s'.reward = s.reward) : CallOutcome tc s (.error e, s')
  | answered {terminated : Bool} {s' : State} (name : PyVal) (content : PyStr)
      (hmessages : s'.messages = s.messages ++ [toolMessage (idOf tc) name content])
      (hturns : s'.turns = s.turns) : CallOutcome tc s (.ok terminated, s')

/-- A tool call that carries an id is answered under it, or raises before a reward is set. -/
theorem callTool_outcome (turn : ℕ) {tc : PyVal} {items : List (PyStr × PyVal)} {id : PyVal}
    (htc : tc = .dict items) (hid : items.lookup ("id" : PyStr) = some id) :
    CallOutcome tc s (callTool py b turn tc s) := by
  subst htc
  have hget : ∀ default, dictGet items "id" default = id := fun default => by
    rw [dictGet, hid, Option.getD_some]
  have hidOf : idOf (.dict items) = id := hget .null
  rw [callTool]
  refine lift_bind_cases (fun e _ => .raised rfl) fun function _ => ?_
  refine lift_bind_cases (fun e _ => .raised rfl) fun name _ => ?_
  refine lift_bind_cases (fun e _ => .raised rfl) fun raw _ => ?_
  rw [modify_bind_run, get_bind_run]
  refine lift_bind_cases (fun e _ => .raised rfl) fun callId hcallId => ?_
  rw [PyVal.get_dict, hget] at hcallId
  obtain rfl := Except.ok.inj hcallId
  rcases ToolArguments.Collection.parseToolArguments py raw with parseError | kwargs
  · exact .answered name (PyStr.ofString "Error: " ++ parseError) (by rw [hidOf]) rfl
  · refine lift_bind_cases (fun e _ => .raised rfl) fun step _ => ?_
    exact .answered name step.observation (by rw [hidOf]) rfl

/-- What calling the policy can do. -/
inductive GenerateOutcome (b : Behaviour) (turn : ℕ) (s : State) :
    Except PyErr Message × State → Prop
  | raised {e : PyErr} : GenerateOutcome b turn s (.error e, s)
  | answered {request : List Message} {truncated : Bool} {assistant : Message}
      (h : teacherAnswer b turn request = .ok assistant) :
      GenerateOutcome b turn s (.ok assistant, s.answered turn request truncated assistant)

theorem generate_outcome (turn : ℕ) :
    GenerateOutcome b turn s (generate py args b turn s) := by
  rw [generate, get_bind_run]
  refine lift_bind_cases (fun e _ => .raised) ?_
  rintro ⟨request, truncated⟩ -
  exact lift_bind_cases (fun e _ => .raised) fun assistant hanswer => .answered hanswer

/-- What there is to execute of calls that are not empty. -/
theorem firstOnly_cases {v : PyVal} {calls : List PyVal} (hv : v.truthy = true)
    (h : firstOnly v = .ok calls) :
    (∃ call rest, v = .list (call :: rest) ∧ calls = [call]) ∨ ∃ c, calls = [.str [c]] := by
  rcases v with _ | _ | _ | _ | (_ | ⟨c, text⟩) | (_ | ⟨call, rest⟩) | _
  · cases h
  · cases h
  · cases h
  · cases h
  · cases hv
  · obtain rfl := Except.ok.inj h
    exact .inr ⟨c, rfl⟩
  · cases hv
  · obtain rfl := Except.ok.inj h
    exact .inl ⟨call, rest, rfl, rfl⟩
  · cases h

/-- What a message lists when it has calls, and when it has none. -/
theorem listedCalls_of_or {message : Message} {call : PyVal} {calls : List PyVal}
    (h : (dictGet message "tool_calls").or (.list []) = .list (call :: calls)) :
    listedCalls message = call :: calls := by
  rw [PyVal.or] at h
  split at h
  · rw [listedCalls, h]
  · cases h

theorem listedCalls_of_falsy {message : Message}
    (h : ((dictGet message "tool_calls").or (.list [])).truthy ≠ true) :
    listedCalls message = [] := by
  rw [listedCalls]
  split
  · next calls hcalls =>
    rcases calls with - | ⟨call, calls⟩
    · rfl
    · rw [hcalls] at h
      exact absurd rfl h
  · rfl

/-- The turn after the teacher has answered. -/
theorem act_outcome {turn : ℕ} {request : List Message} {truncated : Bool} {assistant : Message}
    (hanswer : teacherAnswer b turn request = .ok assistant) (hids : OwnIds assistant) :
    TurnOutcome b turn s (act py b turn assistant (s.answered turn request truncated assistant)) := by
  have hmessages : ∀ tail, (s.answered turn request truncated assistant).messages ++ tail =
      s.messages ++ assistant :: tail := fun tail => List.append_assoc _ [assistant] tail
  rw [act]
  dsimp only
  split
  · next htruthy =>
    refine lift_bind_cases (fun e _ => .raised rfl) fun calls hcalls => ?_
    obtain ⟨call, rest, hlist, rfl⟩ | ⟨c, rfl⟩ := firstOnly_cases htruthy hcalls
    · have hlisted := listedCalls_of_or hlist
      obtain ⟨items, id, htc, hid⟩ := hids.carries call (by rw [hlisted]; exact List.mem_cons_self)
      have hcall : CallOutcome call (s.answered turn request truncated assistant)
          (callTool py b turn call (s.answered turn request truncated assistant)) :=
        callTool_outcome turn htc hid
      rw [bind_run, callFirst]
      rcases hrun : callTool py b turn call (s.answered turn request truncated assistant) with
        ⟨e | terminated, s'⟩
      · rw [hrun] at hcall
        obtain ⟨hreward⟩ := hcall
        exact .raised hreward
      · rw [hrun] at hcall
        obtain - | ⟨name, content, hadded, hturns⟩ := hcall
        refine .completed hanswer (.called name content hlisted) (hadded.trans (hmessages _)) hturns
          fun hstop => ?_
        exact (Bool.or_eq_false_iff.mp hstop).2
    · exact .raised rfl
  · next hfalsy =>
    have hlisted := listedCalls_of_falsy hfalsy
    refine lift_bind_cases (fun e _ => .raised rfl) fun step _ => ?_
    rw [setReward, modify_bind_run]
    split
    · exact .completed hanswer (.replied [] hlisted nofun) rfl rfl nofun
    · refine .completed hanswer (.replied [userMessage step.observation] hlisted ?_)
        (hmessages _) rfl id
      rw [List.forall_mem_singleton]
      exact ⟨rfl, rfl⟩

/-- **One turn.** Whatever the teacher and the environment answer, a turn raises before a reward is
set, or completes a round. -/
theorem turnBody_outcome (turn : ℕ)
    (hids : ∀ request assistant, teacherAnswer b turn request = .ok assistant → OwnIds assistant) :
    TurnOutcome b turn s (turnBody py args b turn s) := by
  have hgenerate : GenerateOutcome b turn s (generate py args b turn s) := generate_outcome turn
  rw [turnBody, bind_run]
  rcases hrun : generate py args b turn s with ⟨e | assistant, s'⟩
  · rw [hrun] at hgenerate
    cases hgenerate
    exact .raised rfl
  · rw [hrun] at hgenerate
    obtain - | hanswer := hgenerate
    exact act_outcome hanswer (hids _ _ hanswer)

/-! ### The whole trajectory -/

/-- A round of the transcript is that of a turn. -/
def RoundOf (b : Behaviour) (p : Turn × ℕ) (round : Message × List Message) : Prop :=
  teacherAnswer b p.2 p.1.request = .ok round.1 ∧ Tail round.1 round.2

/-- The loop after a turn that raised, and after one that was completed. -/
theorem turnLoop_raised {turn : ℕ} {turns : List ℕ} {e : PyErr} {s' : State}
    (h : turnBody py args b turn s = (.error e, s')) :
    turnLoop py args b (turn :: turns) s = (.ok (), { s' with error := some e.describe }) := by
  rw [turnLoop, bind_run, Prog.attempt, h]
  rfl

theorem turnLoop_completed {turn : ℕ} {turns : List ℕ} {stop : Bool} {s' : State}
    (h : turnBody py args b turn s = (.ok stop, s')) :
    turnLoop py args b (turn :: turns) s =
      if stop then (.ok (), s') else turnLoop py args b turns s' := by
  rw [turnLoop, bind_run, Prog.attempt, h]
  rcases stop with - | -
  · rfl
  · rfl

/-- **A successful transcript is written round by round**, one for each turn. -/
theorem turnLoop_success
    (hids : ∀ turn request assistant, teacherAnswer b turn request = .ok assistant →
      OwnIds assistant) (n : ℕ) : ∀ (turn : ℕ) {s s' : State} {result : Except PyErr Unit},
      atLeastOne s.reward = false →
      turnLoop py args b (List.range' turn n) s = (result, s') → atLeastOne s'.reward = true →
      ∃ turns rounds, s'.turns = s.turns ++ turns ∧ s'.messages = ofRounds s.messages rounds ∧
        List.Forall₂ (RoundOf b) (turns.zipIdx turn) rounds := by
  induction n with
  | zero =>
    intro turn s s' result hlow hrun hhigh
    obtain rfl : s = s' := (Prod.mk.inj hrun).2
    exact nomatch hlow.symm.trans hhigh
  | succ n ih =>
    intro turn s s' result hlow hrun hhigh
    have hturn : TurnOutcome b turn s (turnBody py args b turn s) :=
      turnBody_outcome turn (hids turn)
    rcases hbody : turnBody py args b turn s with ⟨e | stop, s₁⟩
    · rw [hbody] at hturn
      rw [List.range'_succ, turnLoop_raised hbody] at hrun
      obtain ⟨hreward⟩ := hturn
      obtain rfl := (Prod.mk.inj hrun).2
      rw [show atLeastOne _ = atLeastOne s₁.reward from rfl, hreward, hlow] at hhigh
      cases hhigh
    · rw [hbody] at hturn
      rw [List.range'_succ, turnLoop_completed hbody] at hrun
      obtain _ | @⟨_, _, request, assistant, tail, hanswer, htail, hmessages, hturns, hstop⟩ :=
        hturn
      have hround : RoundOf b (⟨s.messages, request⟩, turn) (assistant, tail) := ⟨hanswer, htail⟩
      have hfirst : ofRounds s.messages [(assistant, tail)] = s₁.messages := by
        rw [hmessages, ofRounds, List.flatMap_singleton]
      rcases stop with - | -
      · obtain ⟨turns, rounds, hturns', hmessages', hrounds⟩ := ih (turn + 1) (hstop rfl) hrun hhigh
        refine ⟨⟨s.messages, request⟩ :: turns, (assistant, tail) :: rounds, ?_, ?_,
          .cons hround hrounds⟩
        · rw [hturns', hturns, List.append_assoc, List.singleton_append]
        · rw [hmessages', ← hfirst, ← ofRounds_append, List.singleton_append]
      · obtain rfl := (Prod.mk.inj hrun).2
        exact ⟨[⟨s.messages, request⟩], [(assistant, tail)], hturns, hfirst.symm, .cons hround .nil⟩

/-- A round is paired exactly when the assistant message lists at most one call. -/
theorem roundPaired_iff {assistant : Message} {tail : List Message} (hids : OwnIds assistant)
    (htail : Tail assistant tail) :
    RoundPaired askedIds answeredId (assistant, tail) ↔ (listedCalls assistant).length ≤ 1 := by
  obtain @⟨call, calls, name, content, hlisted⟩ | ⟨_, hlisted, htail⟩ := htail
  · have hasked : askedIds assistant = idOf call :: calls.map idOf := by
      rw [askedIds, hlisted, List.map_cons]
    have hanswered : [toolMessage (idOf call) name content].filterMap answeredId =
        [idOf call] := rfl
    rw [hlisted, List.length_cons]
    constructor
    · intro h
      rcases calls with - | ⟨second, calls⟩
      · exact Nat.le_refl 1
      · -- the second call has an id of its own, which nothing answers
        have hsecond := h.answered (idOf second) (by rw [hasked]; simp)
        have hne : idOf second ≠ idOf call := by
          intro heq
          have hown := hids.own
          rw [hasked, List.map_cons, heq] at hown
          exact (List.nodup_cons.mp hown).1 List.mem_cons_self
        rw [hanswered, List.count_singleton] at hsecond
        simp only [beq_iff_eq, hne.symm, if_false] at hsecond
        cases hsecond
    · intro h
      obtain rfl : calls = [] := List.length_eq_zero_iff.mp (by omega)
      refine ⟨fun k hk => ?_, fun k hk => ?_⟩
      · rw [hasked, List.map_nil, List.mem_singleton] at hk
        rw [hanswered, hk, List.count_singleton_self]
      · rw [hanswered] at hk
        rw [hasked]
        exact hk
  · rw [hlisted]
    refine iff_of_true ⟨fun k hk => ?_, fun k hk => ?_⟩ (Nat.zero_le 1)
    · rw [askedIds, hlisted] at hk
      cases hk
    · obtain ⟨m, hm, hanswers⟩ := List.mem_filterMap.mp hk
      rw [(htail m hm).2] at hanswers
      cases hanswers

/-- What holds of the elements on one side holds of those on the other. -/
theorem forall_mem_iff_of_forall₂ {α β : Type} {R : α → β → Prop} {P : α → Prop} {Q : β → Prop}
    (hPQ : ∀ a b, R a b → (P a ↔ Q b)) {as : List α} {bs : List β} (h : List.Forall₂ R as bs) :
    (∀ a ∈ as, P a) ↔ ∀ b ∈ bs, Q b := by
  induction h with
  | nil => exact iff_of_true nofun nofun
  | cons hab _ ih => rw [List.forall_mem_cons, List.forall_mem_cons, hPQ _ _ hab, ih]

theorem RoundOf.opens {p : Turn × ℕ} {round : Message × List Message} (h : RoundOf b p round) :
    isAssistant round.1 = true ∧ answeredId round.1 = none := by
  obtain ⟨data, -, hread⟩ := bind_eq_ok.mp h.1
  have hassistant := readAssistant_role hread
  refine ⟨hassistant, if_neg ?_⟩
  rw [of_decide_eq_true hassistant]
  decide

theorem Tail.not_assistant {assistant : Message} {tail : List Message} (h : Tail assistant tail) :
    ∀ m ∈ tail, isAssistant m = false := by
  obtain ⟨name, content, -⟩ | ⟨_, -, htail⟩ := h
  · rw [List.forall_mem_singleton]
    rfl
  · exact fun m hm => (htail m hm).1

/-- **When a successful transcript is a well-formed dialogue**: every call that is listed is
answered once before the next assistant message and every tool message answers such a call, exactly
when the teacher never listed two calls. -/
theorem transcript_paired_iff
    (hids : ∀ turn request assistant, teacherAnswer b turn request = .ok assistant →
      OwnIds assistant) {taskId : ℤ} {sampleIdx : ℕ} {temperature : PyFloat} {rollout : Rollout}
    (h : runTeacherRollout py args b taskId sampleIdx temperature = .ok rollout)
    (hsuccess : rollout.row.success = true) :
    Paired isAssistant askedIds answeredId rollout.row.messages ↔ OneCallEach b rollout.turns := by
  obtain ⟨⟨system, first⟩, -, h⟩ := bind_eq_ok.mp h
  obtain rfl := Except.ok.inj h
  rcases hrun : turnLoop py args b (List.range args.max_turns.toNat)
    (initialState system first) with
    ⟨result, s⟩
  rw [hrun] at hsuccess
  rw [List.range_eq_range'] at hrun
  obtain ⟨turns, rounds, hturns, hmessages, hrounds⟩ := turnLoop_success hids _ 0 rfl hrun hsuccess
  have hopens : ∀ r ∈ rounds, isAssistant r.1 = true ∧ answeredId r.1 = none :=
    (forall_mem_iff_of_forall₂ (P := fun _ => True)
      (fun _ _ hround => iff_of_true trivial hround.opens) hrounds).mp fun _ _ => trivial
  have htails : ∀ r ∈ rounds, ∀ m ∈ r.2, isAssistant m = false :=
    (forall_mem_iff_of_forall₂ (P := fun _ => True)
      (fun _ _ hround => iff_of_true trivial hround.2.not_assistant) hrounds).mp fun _ _ => trivial
  have hstart : ∀ m ∈ (initialState system first).messages,
      isAssistant m = false ∧ answeredId m = none :=
    List.forall_mem_cons.mpr ⟨⟨rfl, rfl⟩, List.forall_mem_singleton.mpr ⟨rfl, rfl⟩⟩
  dsimp only
  rw [hmessages, hturns, paired_ofRounds_iff hopens htails hstart]
  refine (forall_mem_iff_of_forall₂ (fun p r hround => ?_) hrounds).symm
  rw [roundPaired_iff (hids _ _ _ hround.1) hround.2]
  constructor
  · exact fun hone => hone _ hround.1
  · intro hone assistant hanswer
    obtain rfl := Except.ok.inj (hround.1.symm.trans hanswer)
    exact hone

end Turn

/-! ### A teacher with one call and a teacher with two -/

def sampleCall (id : PyStr) : PyVal :=
  .dict [("id", .str id),
    ("function", .dict [("name", .str "get_user_details"), ("arguments", .str "\x7b\x7d")])]

/-- A teacher that lists these calls, and a task that is solved by the first. -/
def callingWorld (calls : List PyVal) : Behaviour where
  start := .ok ("Help the user.", "Hi")
  teacher _ _ := .ok (.dict [("choices", .list [.dict [("message",
    .dict [("tool_calls", .list calls)])]])])
  step _ _ _ := .ok ⟨"Found.", .fin 1, true⟩

/-- What is recorded of the teacher. -/
def sampleAssistant (calls : List PyVal) : Message :=
  [("role", .str "assistant"), ("content", .str []),
    ("tool_calls", (PyVal.list calls).or (.list []))]

theorem callingWorld_answer {calls : List PyVal} {turn : ℕ} {request : List Message}
    {assistant : Message} (h : teacherAnswer (callingWorld calls) turn request = .ok assistant) :
    assistant = sampleAssistant calls := (Except.ok.inj h).symm

theorem ownIds_callingWorld (ids : List PyStr) (hids : ids.Nodup) {turn : ℕ}
    {request : List Message} {assistant : Message}
    (h : teacherAnswer (callingWorld (ids.map sampleCall)) turn request = .ok assistant) :
    OwnIds assistant := by
  have hlisted : listedCalls assistant = ids.map sampleCall := by
    rw [callingWorld_answer h]
    rcases ids with - | ⟨id, ids⟩
    · rfl
    · rfl
  refine ⟨fun call hcall => ?_, ?_⟩
  · rw [hlisted] at hcall
    obtain ⟨id, -, rfl⟩ := List.mem_map.mp hcall
    exact ⟨_, .str id, rfl, rfl⟩
  · rw [askedIds, hlisted, List.map_map]
    exact List.Nodup.map (fun _ _ heq => PyVal.str.inj heq) hids

theorem transcript_paired_sample : ∃ rollout,
    runTeacherRollout .silent {} (callingWorld [sampleCall "a"]) 0 0 (.fin 0) = .ok rollout ∧
      Paired isAssistant askedIds answeredId rollout.row.messages := by
  have hrun : (runTeacherRollout .silent {} (callingWorld [sampleCall "a"]) 0 0 (.fin 0)).map
      (fun rollout => rollout.row.success) = .ok true := by decide +kernel
  obtain ⟨rollout, hrollout, hsuccess⟩ := map_eq_ok.mp hrun
  refine ⟨rollout, hrollout, (transcript_paired_iff (fun _ _ _ h => ownIds_callingWorld ["a"]
    (List.nodup_singleton _) h) hrollout hsuccess).mpr ?_⟩
  intro p hp assistant hanswer
  rw [callingWorld_answer hanswer]
  exact Nat.le_refl 1

/-- The second of two calls is never answered. -/
theorem transcript_not_paired :
    (∀ turn request assistant,
      teacherAnswer (callingWorld [sampleCall "a", sampleCall "b"]) turn request = .ok assistant →
        OwnIds assistant) ∧
    ∃ rollout, runTeacherRollout .silent {} (callingWorld [sampleCall "a", sampleCall "b"]) 0 0
        (.fin 0) = .ok rollout ∧
      rollout.row.success = true ∧ ¬Paired isAssistant askedIds answeredId
        rollout.row.messages := by
  have hrun : (runTeacherRollout .silent {} (callingWorld [sampleCall "a", sampleCall "b"]) 0 0
      (.fin 0)).map (fun rollout => (rollout.row.success, rollout.row.messages)) =
    .ok (true, [systemMessage "Help the user.", userMessage "Hi",
      sampleAssistant [sampleCall "a", sampleCall "b"],
      toolMessage (.str "a") (.str "get_user_details") "Found."]) := by decide +kernel
  obtain ⟨rollout, hrollout, hrow⟩ := map_eq_ok.mp hrun
  obtain ⟨hsuccess, hmessages⟩ := Prod.mk.inj hrow
  refine ⟨fun _ _ _ h => ownIds_callingWorld ["a", "b"] (by decide) h, rollout, hrollout, hsuccess,
    fun hpaired => ?_⟩
  have hsecond := hpaired.answered [systemMessage "Help the user.", userMessage "Hi"] _ _ hmessages
    rfl (.str "b") (by decide)
  exact absurd hsecond (by decide)

end Collect

end ToolAgent
