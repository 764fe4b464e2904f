import ToolAgent.Python.RoundTrip
import ToolAgent.Sft.Dataset
import ToolAgent.Sft.Resume

/-!
# Training on collected trajectories

`TrajectorySFTDataset` of `toolagent.sft_dataset` reads the file that the collection has written,
and makes an example of each row. It stops at the first line that it cannot read.

What a row holds besides strings and numbers of the collection is what the teacher's server
answered, which has been read from JSON. So a row can be read back, and training on a completed
collection goes through: the examples are those of the clean trajectories.

## Main definitions

* `TrajectorySFTDataset.init` — the examples of a file
* `Teaches`, `Row.Short`, `Trainable` — what is asked of the teacher, and of the numbers in a row

## Main results

* `storable_row` — a collected row can be read back
* `collect_trains` — the examples of a completed collection
-/

namespace ToolAgent

namespace Collect

open Python Prog Policy

open Sft (Example Tokenizer buildSupervisedExample)

variable {py : Interp} {d : ℕ}

/-! ### The data set -/

/-- A message, where `build_supervised_example` asks for its role. -/
def messageItems : PyVal → Except PyErr Message
  | .dict items => .ok items
  | v => .error ⟨.attributeError, "'" ++ v.typeName ++ "' object has no attribute 'get'"⟩

/-- The example of a line. -/
def lineExample (py : Interp) (tokenizer : Tokenizer) (tools : Option (List PyVal)) (maxLength : ℤ)
    (line : PyStr) : Except PyErr (Option Example) := do
  let row ← loads py.recursionLimit line
  let messages ← getKey row "messages"
  let messages ← messages.iter
  let messages ← messages.mapM messageItems
  .ok (buildSupervisedExample messages tokenizer tools maxLength)

/-- `self.examples`, for the content of the file. -/
def TrajectorySFTDataset.init (py : Interp) (content : PyStr) (tokenizer : Tokenizer)
    (tools : Option (List PyVal)) (maxLength : ℤ) : Except PyErr (List Example) := do
  let examples ← (readLines content).mapM (lineExample py tokenizer tools maxLength)
  .ok (examples.filterMap id)

/-- A row that is read back as it was. -/
structure Row.ReadBack (py : Interp) (row : Row) : Prop where
  storable : Storable py.recursionLimit row.toVal
  floats : ∀ q, HasFloat q row.toVal → ReadsBack (py.floatRepr q) q

theorem lineExample_jsonLine {row : Row} (h : row.ReadBack py) (tokenizer : Tokenizer)
    (tools : Option (List PyVal)) (maxLength : ℤ) :
    lineExample py tokenizer tools maxLength (jsonLine py row) =
      .ok (buildSupervisedExample row.messages tokenizer tools maxLength) := by
  have hloads : loads py.recursionLimit (jsonLine py row) = .ok row.toVal :=
    loads_dumps h.storable h.floats (List.forall_mem_nil _) (by decide) 0
  have hmessages : (row.messages.map PyVal.dict).mapM messageItems = .ok row.messages := by
    have hid : row.messages.mapM (messageItems ∘ PyVal.dict) = .ok (row.messages.map id) :=
      mapM_eq_ok_map fun _ _ => rfl
    rw [List.mapM_map, hid, List.map_id]
  have hkey : getKey row.toVal "messages" = .ok (.list (row.messages.map .dict)) := rfl
  rw [lineExample, hloads, ok_bind, hkey, ok_bind, PyVal.iter, ok_bind, hmessages, ok_bind]

/-- **The rows of a file** are its examples, where a row has one. -/
theorem init_jsonLines {rows : List Row} (h : ∀ row ∈ rows, row.ReadBack py) (tokenizer : Tokenizer)
    (tools : Option (List PyVal)) (maxLength : ℤ) :
    TrajectorySFTDataset.init py (jsonLines py rows) tokenizer tools maxLength =
      .ok (rows.filterMap fun row => buildSupervisedExample row.messages tokenizer tools maxLength) := by
  have hlines : (rows.map (jsonLine py)).mapM (lineExample py tokenizer tools maxLength) =
      .ok (rows.map fun row => buildSupervisedExample row.messages tokenizer tools maxLength) := by
    rw [List.mapM_map]
    exact mapM_eq_ok_map fun row hrow => lineExample_jsonLine (h row hrow) tokenizer tools maxLength
  rw [TrajectorySFTDataset.init, readLines_jsonLines, hlines, ok_bind, List.filterMap_map]
  rfl

/-! ### What the teacher's answers are made of -/

theorem storable_getKey {v w : PyVal} {key : PyStr} (h : Storable (d + 1) v)
    (hw : getKey v key = .ok w) :
    Storable d w := by
  cases v with
  | dict items =>
    rw [getKey] at hw
    split at hw
    · next heq => exact Except.ok.inj hw ▸ h.dict_inv.2 _ (mem_of_lookup heq)
    · cases hw
  | _ => cases hw

theorem storable_get {v w default : PyVal} {key : PyStr} (h : Storable (d + 1) v)
    (hdefault : Storable d default)
    (hw : v.get key default = .ok w) : Storable d w := by
  cases v with
  | dict items =>
    rw [PyVal.get_dict, Except.ok.injEq, dictGet] at hw
    rw [← hw]
    cases heq : items.lookup key with
    | none => exact hdefault
    | some w => exact h.dict_inv.2 _ (mem_of_lookup heq)
  | _ => cases hw

theorem storable_getFirst {v w : PyVal} (h : Storable (d + 1) v)
    (hw : getFirst v = .ok w) : Storable d w := by
  cases v with
  | list xs => exact h.list_inv w (List.mem_of_getElem? (item_eq_ok.mp hw))
  | str s =>
    obtain ⟨c, -, rfl⟩ := map_eq_ok.mp hw
    exact .str _
  | _ => cases hw

theorem storable_firstOnly {v : PyVal} {vs : List PyVal} (h : Storable d v)
    (hvs : firstOnly v = .ok vs) :
    ∀ w ∈ vs, Storable d w := by
  intro w hw
  cases v with
  | list xs =>
    rw [← Except.ok.inj hvs] at hw
    exact (h.mono (Nat.le_succ d)).list_inv w (List.mem_of_mem_take hw)
  | str s =>
    rw [← Except.ok.inj hvs] at hw
    obtain ⟨c, -, rfl⟩ := List.mem_map.mp hw
    exact .str _
  | _ => cases hvs

theorem storable_or {v w : PyVal} (hv : Storable d v) (hw : Storable d w) :
    Storable d (v.or w) := by
  rw [PyVal.or]
  split
  · exact hv
  · exact hw

/-- The message that is made of an answer. -/
theorem storable_assistant {data : PyVal} {assistant : Message} (h : Storable (d + 4) data)
    (hread : readAssistant data = .ok assistant) : Storable (d + 2) (.dict assistant) := by
  obtain ⟨choices, hchoices, hread⟩ := bind_eq_ok.mp hread
  obtain ⟨choice, hchoice, hread⟩ := bind_eq_ok.mp hread
  obtain ⟨msg, hmsg, hread⟩ := bind_eq_ok.mp hread
  obtain ⟨content, hcontent, hread⟩ := bind_eq_ok.mp hread
  obtain ⟨toolCalls, htoolCalls, hread⟩ := bind_eq_ok.mp hread
  have hstored : Storable (d + 2) msg :=
    (storable_getKey (storable_getFirst (storable_getKey h hchoices) hchoice) hmsg).mono
      (Nat.le_succ _)
  have hkeys : [PyStr.ofString "role", PyStr.ofString "content", PyStr.ofString "tool_calls"].Nodup := by decide
  rw [← Except.ok.inj hread]
  refine .dict hkeys ?_
  rw [List.forall_mem_cons, List.forall_mem_cons, List.forall_mem_singleton]
  exact ⟨.str _, storable_or (storable_get hstored .null hcontent) (.str _),
    storable_or (storable_get hstored .null htoolCalls)
      (.list fun _ hx => absurd hx List.not_mem_nil)⟩

theorem storable_toolMessage {callId name : PyVal} (hcallId : Storable (d + 1) callId)
    (hname : Storable (d + 1) name) (content : PyStr) :
    Storable (d + 2) (.dict (toolMessage callId name content)) := by
  have hkeys : [PyStr.ofString "role", PyStr.ofString "tool_call_id", PyStr.ofString "name",
      PyStr.ofString "content"].Nodup := by decide
  refine .dict hkeys ?_
  rw [toolMessage, List.forall_mem_cons, List.forall_mem_cons, List.forall_mem_cons,
    List.forall_mem_singleton]
  exact ⟨.str _, hcallId, hname, .str _⟩

theorem storable_userMessage (text : PyStr) : Storable (d + 2) (.dict (userMessage text)) := by
  have hkeys : [PyStr.ofString "role", PyStr.ofString "content"].Nodup := by decide
  refine .dict hkeys ?_
  rw [userMessage, List.forall_mem_cons, List.forall_mem_singleton]
  exact ⟨.str _, .str _⟩

theorem storable_systemMessage (text : PyStr) : Storable (d + 2) (.dict (systemMessage text)) := by
  have hkeys : [PyStr.ofString "role", PyStr.ofString "content"].Nodup := by decide
  refine .dict hkeys ?_
  rw [systemMessage, List.forall_mem_cons, List.forall_mem_singleton]
  exact ⟨.str _, .str _⟩

/-! ### What a rollout keeps -/

/-- The answers of the teacher have been read from JSON. -/
def Teaches (py : Interp) (b : Behaviour) : Prop :=
  ∀ turn request data, b.teacher turn request = .ok data → Storable py.recursionLimit data

/-- Every message can be stored. -/
def Stored (d : ℕ) (s : State) : Prop := ∀ message ∈ s.messages, Storable (d + 2) (.dict message)

section Rollout

variable {args : Args} {b : Behaviour}

theorem Stored.concat {s : State} (h : Stored d s) {message : Message}
    (hmessage : Storable (d + 2) (.dict message)) :
    ∀ m ∈ s.messages ++ [message], Storable (d + 2) (.dict m) :=
  List.forall_mem_append.mpr ⟨h, List.forall_mem_singleton.mpr hmessage⟩

theorem addMessage_stored {message : Message} (h : Storable (d + 2) (.dict message)) :
    Keeps (addMessage message) (Stored d) :=
  .modify fun _ hs => hs.concat h

theorem generate_returns (hteaches : Teaches py b) (hdepth : py.recursionLimit = d + 4) (turn : ℕ) :
    Returns (generate py args b turn) fun assistant => Storable (d + 2) (.dict assistant) := by
  refine .bind_last fun s => .bind_last fun (request, truncated) => ?_
  refine .bind (Q := fun assistant => Storable (d + 2) (.dict assistant)) ?_
    fun assistant hassistant =>
    .bind_last fun _ => .pure hassistant
  intro s' assistant s'' hrun
  obtain ⟨data, hdata, hread⟩ := bind_eq_ok.mp (lift_run_ok.mp hrun).1
  exact storable_assistant (hdepth ▸ hteaches turn request data hdata) hread

theorem generate_stored (hteaches : Teaches py b) (hdepth : py.recursionLimit = d + 4) (turn : ℕ) :
    Keeps (generate py args b turn) (Stored d) := by
  refine .bind .get fun s => .bind (.lift _) fun (request, truncated) =>
    .lift_bind fun assistant hassistant => ?_
  obtain ⟨data, hdata, hread⟩ := bind_eq_ok.mp hassistant
  exact .bind (.modify fun _ hs => hs.concat
    (storable_assistant (hdepth ▸ hteaches turn request data hdata) hread))
    fun _ => .pure _

theorem callTool_stored (turn : ℕ) {tc : PyVal} (htc : Storable (d + 1) tc) :
    Keeps (callTool py b turn tc) (Stored d) := by
  have hitem : Storable (d + 2) tc := htc.mono (Nat.le_succ _)
  refine .lift_bind fun function hfunction => .lift_bind fun name hname =>
    .bind (.lift _) fun raw =>
    .bind (.modify fun _ hs => hs) fun _ => .bind .get fun s => .lift_bind fun callId hcallId => ?_
  have hnameStored : Storable (d + 1) name :=
    storable_getKey ((storable_getKey hitem hfunction).mono (Nat.le_succ _)) hname
  have hmessage (content : PyStr) := storable_toolMessage (storable_get hitem (.str _) hcallId)
    hnameStored content
  split
  · exact .bind (addMessage_stored (hmessage _)) fun _ => .pure _
  · exact .bind (.lift _) fun step => .bind (addMessage_stored (hmessage _)) fun _ =>
      .bind (.modify fun _ hs => hs) fun _ => .pure _

theorem storable_dictGet {items : List (PyStr × PyVal)} (h : Storable (d + 1) (.dict items))
    (key : PyStr) :
    Storable d (dictGet items key) :=
  storable_get h .null (PyVal.get_dict items key .null)

theorem act_stored (turn : ℕ) {assistant : Message} (h : Storable (d + 2) (.dict assistant)) :
    Keeps (act py b turn assistant) (Stored d) := by
  rw [act]
  split
  · refine .lift_bind fun calls hcalls => .bind ?_ fun terminated => .bind .get fun s => .pure _
    have hstored := storable_firstOnly (storable_or (storable_dictGet h _)
      (.list fun _ hx => absurd hx List.not_mem_nil)) hcalls
    cases calls with
    | nil => exact .pure _
    | cons tc calls => exact callTool_stored turn (hstored tc List.mem_cons_self)
  · refine .bind (.lift _) fun step => .bind (.modify fun _ hs => hs) fun _ => ?_
    split
    · exact .pure _
    · exact .bind (addMessage_stored (storable_userMessage _)) fun _ => .pure _

theorem turnLoop_stored (hteaches : Teaches py b) (hdepth : py.recursionLimit = d + 4)
    (turns : List ℕ) :
    Keeps (turnLoop py args b turns) (Stored d) := by
  induction turns with
  | nil => exact .pure _
  | cons turn turns ih =>
    have hbody : Keeps (turnBody py args b turn) (Stored d) :=
      .bind_returns (generate_stored hteaches hdepth turn) (generate_returns hteaches hdepth turn)
        fun assistant hassistant => act_stored turn hassistant
    have hstop : ∀ e, Keeps (stopWith e) (Stored d) :=
      fun e => .bind (.modify fun _ hs => hs) fun _ => .pure _
    refine .bind (.attempt hbody hstop) fun stop => ?_
    split
    · exact .pure _
    · exact ih

/-- The numbers in a row have at most as many digits as the decoder accepts. -/
def Row.Short (row : Row) : Prop :=
  ∀ n ∈ [row.task_id, row.sample_idx, row.num_turns, row.num_tool_calls,
    (row.was_contaminated_from_turn.getD 0 : ℤ)], Collect.Short n

/-- **A collected row** can be read back. -/
theorem storable_row (hteaches : Teaches py b) (hdepth : 4 ≤ py.recursionLimit) {taskId : ℤ}
    {sampleIdx : ℕ}
    {temperature : PyFloat} {rollout : Rollout}
    (h : runTeacherRollout py args b taskId sampleIdx temperature = .ok rollout)
    (hshort : rollout.row.Short) :
    Storable py.recursionLimit rollout.row.toVal := by
  obtain ⟨d, hd⟩ := Nat.exists_eq_add_of_le' hdepth
  obtain ⟨⟨system, first⟩, -, h⟩ := bind_eq_ok.mp h
  have hinit : Stored d (initialState system first) := by
    rw [Stored, initialState, List.forall_mem_cons, List.forall_mem_singleton]
    exact ⟨storable_systemMessage system, storable_userMessage first⟩
  have hstored : Stored d (turnLoop py args b (List.range args.max_turns.toNat)
      (initialState system first)).2 :=
    turnLoop_stored hteaches hd _ _ hinit
  have hmessages : rollout.row.messages =
      (turnLoop py args b (List.range args.max_turns.toNat) (initialState system first)).2.messages := by
    rw [← Except.ok.inj h]
  rw [Stored, ← hmessages] at hstored
  rw [Row.Short, List.forall_mem_cons, List.forall_mem_cons, List.forall_mem_cons,
    List.forall_mem_cons,
    List.forall_mem_singleton] at hshort
  obtain ⟨hid, hidx, hturns, hcalls, hcontaminated⟩ := hshort
  have hkeys : ["task_id", "sample_idx", "temperature", "success", "reward", "num_turns",
      "num_tool_calls", "error",
      "was_contaminated_from_turn", "messages", "source"].map PyStr.ofString |>.Nodup := by decide
  rw [hd, Row.toVal]
  refine .dict hkeys ?_
  iterate 10 rw [List.forall_mem_cons]
  rw [List.forall_mem_singleton]
  refine ⟨.int hid, .int hidx, .float _, .bool _, .float _, .int hturns, .int hcalls, ?_, ?_,
    .list ?_, .str _⟩
  · cases rollout.row.error with
    | none => exact .null
    | some text => exact .str text
  · cases hturn : rollout.row.was_contaminated_from_turn with
    | none => exact .null
    | some turn =>
      rw [hturn] at hcontaminated
      exact .int hcontaminated
  · exact List.forall_mem_map.mpr hstored

end Rollout

/-! ### Training -/

/-- The teacher's server answers in JSON, and the numbers of what is sampled are read back. -/
structure Trainable (py : Interp) (starts : List Start) (ids : List ℤ) : Prop where
  depth : 4 ≤ py.recursionLimit
  teaches : ∀ st ∈ starts, ∀ taskId sampleIdx, Teaches py (st.world taskId sampleIdx)
  short : ∀ st ∈ starts, ∀ taskId ∈ ids, ∀ rows, st.Sampled py taskId rows → ∀ row ∈ rows, row.Short
  floats : ∀ st ∈ starts, ∀ taskId ∈ ids, ∀ rows, st.Sampled py taskId rows → ∀ row ∈ rows,
    ∀ q, HasFloat q row.toVal → ReadsBack (py.floatRepr q) q

section Training

variable {starts : List Start} {st : Start} {ids : List ℤ} {files : Files} {out : Output}

theorem cleanRows_readBack (h : Trainable py starts ids) (hst : st ∈ starts) {taskId : ℤ}
    (htask : taskId ∈ ids)
    {rollouts : List Rollout}
    (hrollouts : sampleRollouts py st.args st.world st.temperatures taskId = .ok rollouts) :
    ∀ row ∈ cleanRows rollouts, row.ReadBack py := by
  intro row hrow
  obtain ⟨rollout, hclean, rfl⟩ := List.mem_map.mp hrow
  have hrollout : rollout ∈ rollouts := List.mem_of_mem_filter hclean
  obtain ⟨sampleIdx, temperature, hrun⟩ := exists_of_sampleRollouts hrollouts rollout hrollout
  have hsampled : st.Sampled py taskId (rollouts.map Rollout.row) := ⟨rollouts, hrollouts, rfl⟩
  have hmem : rollout.row ∈ rollouts.map Rollout.row := List.mem_map_of_mem hrollout
  exact ⟨storable_row (h.teaches st hst taskId sampleIdx) h.depth hrun
    (h.short st hst taskId htask _ hsampled _ hmem),
    h.floats st hst taskId htask _ hsampled _ hmem⟩

/-- **Training on a completed collection**, resumed or not. No line of the two files stops the data
set, and its examples are those of the clean trajectories: of the seen tasks, and of the others. -/
theorem collect_trains (hdir : Directory py starts files)
    (hresumable : Resumable py (starts ++ [st]) st.taskIds.ids)
    (htrainable : Trainable py (starts ++ [st]) st.taskIds.ids)
    (h : collectFrom py st files = some out)
    (tokenizer : Tokenizer) (tools : Option (List PyVal)) (maxLength : ℤ) :
    ∃ (chosen : ℤ → Start) (rollouts : ℤ → List Rollout),
      (∀ taskId ∈ st.taskIds.ids, chosen taskId ∈ starts ++ [st] ∧
        sampleRollouts py (chosen taskId).args (chosen taskId).world
          (chosen taskId).temperatures taskId =
          .ok (rollouts taskId)) ∧
      out.seen = st.taskIds.ids.filter (fun taskId => taskId ∉ out.holdout) ∧
      (out.files "train.jsonl").map (TrajectorySFTDataset.init py · tokenizer tools maxLength) =
        some (.ok ((out.seen.flatMap fun taskId => cleanRows (rollouts taskId)).filterMap fun row =>
          buildSupervisedExample row.messages tokenizer tools maxLength)) ∧
      (out.files "eval.jsonl").map (TrajectorySFTDataset.init py · tokenizer tools maxLength) =
        some (.ok (((st.taskIds.ids.filter fun taskId => taskId ∈ out.holdout).flatMap fun taskId =>
          cleanRows (rollouts taskId)).filterMap fun row =>
            buildSupervisedExample row.messages tokenizer tools maxLength)) := by
  obtain ⟨chosen, rollouts, hchosen⟩ := collectFrom_done hdir hresumable h
  obtain ⟨hseen, htrain, heval, -⟩ := collectFrom_files h fun taskId htask =>
    (hchosen taskId htask).2.2.2
  have hread (ids : List ℤ) (hids : ∀ taskId ∈ ids, taskId ∈ st.taskIds.ids) :
      ∀ row ∈ ids.flatMap (fun taskId => cleanRows (rollouts taskId)), row.ReadBack py := by
    intro row hrow
    obtain ⟨taskId, htask, hrow⟩ := List.mem_flatMap.mp hrow
    obtain ⟨hst, hrollouts, -, -⟩ := hchosen taskId (hids taskId htask)
    exact cleanRows_readBack htrainable hst (hids taskId htask) hrollouts row hrow
  refine ⟨chosen, rollouts, fun taskId htask =>
    ⟨(hchosen taskId htask).1, (hchosen taskId htask).2.1⟩, hseen, ?_, ?_⟩
  · have hrows := hread out.seen fun taskId htask => List.mem_of_mem_filter (hseen ▸ htask)
    rw [htrain, Option.map_some, init_jsonLines hrows]
  · have hrows := hread (st.taskIds.ids.filter fun taskId => taskId ∈ out.holdout)
      fun taskId htask =>
      List.mem_of_mem_filter htask
    rw [heval, Option.map_some, init_jsonLines hrows]

end Training

theorem teaches_sample (taskId : ℤ) (sampleIdx : ℕ) :
    Teaches wholeFloats (contentWorld taskId sampleIdx) := by
  intro turn request data hdata
  rw [← Except.ok.inj hdata]
  refine .dict (by decide) fun kv hkv => ?_
  obtain rfl := List.mem_singleton.mp hkv
  refine .list fun choice hchoice => ?_
  obtain rfl := List.mem_singleton.mp hchoice
  refine .dict (by decide) fun kv hkv => ?_
  obtain rfl := List.mem_singleton.mp hkv
  refine .dict (by decide) fun kv hkv => ?_
  obtain rfl := List.mem_singleton.mp hkv
  exact .str _

theorem short_sampleRow {taskId : ℤ} (h : taskId ∈ [3, 5]) : (sampleRow taskId).Short := by
  have htasks : ∀ taskId ∈ [3, 5], Short taskId := by decide
  have hcounts : ∀ n ∈ [0, 1, 0, 0], Short n := by decide
  exact List.forall_mem_cons.mpr ⟨htasks taskId h, hcounts⟩

theorem floats_sampleRow (taskId : ℤ) {q : ℚ} (h : HasFloat q (sampleRow taskId).toVal) :
    ReadsBack (wholeFloats.floatRepr q) q := by
  obtain rfl | rfl : q = 0 ∨ q = 1 := by
    simpa [sampleRow, Row.toVal, optional, systemMessage, userMessage, eq_comm] using h
  · exact readsBack_zero
  · exact readsBack_one

theorem trainable_sample (schedules : List (List ℤ)) :
    Trainable wholeFloats (schedules.map sampleStart) [3, 5] where
  depth := by decide
  teaches st hst taskId sampleIdx := by
    obtain ⟨schedule, -, rfl⟩ := List.mem_map.mp hst
    exact teaches_sample taskId sampleIdx
  short st hst taskId htask rows hsampled row hrow := by
    obtain ⟨schedule, -, rfl⟩ := List.mem_map.mp hst
    rw [sampleStart_sampled hsampled, List.mem_singleton] at hrow
    exact hrow ▸ short_sampleRow htask
  floats st hst taskId htask rows hsampled row hrow q hq := by
    obtain ⟨schedule, -, rfl⟩ := List.mem_map.mp hst
    rw [sampleStart_sampled hsampled, List.mem_singleton] at hrow
    exact floats_sampleRow taskId (hrow ▸ hq)

theorem collect_trains_sample : ∃ (out : Output) (rollouts : ℤ → List Rollout),
    resumedRun = some out ∧ out.n_train = 1 ∧
    (out.files "train.jsonl").map
        (TrajectorySFTDataset.init wholeFloats · (Sft.sampleTokenizer true [7]) none 8192) =
      some (.ok ((out.seen.flatMap fun taskId => cleanRows (rollouts taskId)).filterMap fun row =>
        buildSupervisedExample row.messages (Sft.sampleTokenizer true [7]) none 8192)) := by
  have hsome : resumedRun.map Output.n_train = some 1 := by decide +kernel
  obtain ⟨out, hout, htrain⟩ := Option.map_eq_some_iff.mp hsome
  obtain ⟨chosen, rollouts, -, -, hinit, -⟩ := collect_trains (.stopped _ .empty)
    (resumable_sample [3 :: List.replicate 80 5, 5 :: List.replicate 80 3])
    (trainable_sample [3 :: List.replicate 80 5, 5 :: List.replicate 80 3]) hout
    (Sft.sampleTokenizer true [7]) none 8192
  exact ⟨out, rollouts, hout, htrain, hinit⟩

end Collect

end ToolAgent
