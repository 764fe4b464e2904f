import ToolAgent.Library.Grouping
import ToolAgent.Library.Prog
import ToolAgent.Python.Builtins

/-!
# Row operations on a batch

`DataProto` of `verl.protocol`, as far as the agentic hooks of `verl.trainer.ppo.ray_trainer` use
it: `slice`, `select_idxs`, `repeat`, `union` and `concat`, and on top of them the rounds of
`_generate_b_ndsr_batch`.

## Two ways to select rows

`slice(start, end, step)` takes bounds, and the hooks call it with a list of row indices. That puts
the list where a bound should be, which Python rejects. Rows are selected by `select_idxs`, which
`data[indices]` leads to. The rounds below take the selection as a parameter, so both can be looked
at.

## One dictionary for all rounds

`slice`, `select_idxs` and `repeat` hand `meta_info` on without a copy, and `union` writes into it.
Batches therefore hold a reference to a dictionary on a heap. The tensors and arrays that `union`
writes to are fresh in every round, so they are values.

## Main definitions

* `DataProto` and its operations
* `generateBNdsrBatch` — the rounds
* `RowOperations` — what the hooks need of a selection

## Main results

* `selectIdxs_rowsOf`, `repeatRows_rowsOf` — these operations yield the rows they should
* `second_union_raises` — two rounds with different timings cannot both be joined to a batch
* `rowOperations_never` — with `slice` no selection succeeds
-/

namespace ToolAgent

namespace Protocol

open Python Grouping

variable {α β γ : Type}

/-! ### Batches -/

/-- A `TensorDict`: its number of rows, and its tensors by key. -/
structure TensorDict (α : Type) where
  batch_size : ℕ
  tensors : List (PyStr × List α)

structure DataProto (α β : Type) where
  batch : Option (TensorDict α)
  non_tensor_batch : List (PyStr × List β)
  /-- Where the dictionary is on the heap. -/
  meta_info : ℕ

/-- The dictionaries that batches refer to. -/
abbrev Heap := List (List (PyStr × PyVal))

def DataProto.len (data : DataProto α β) : ℕ :=
  match data.batch, data.non_tensor_batch with
  | some batch, _ => batch.batch_size
  | none, (_, val) :: _ => val.length
  | none, [] => 0

def DataProto.tensors (data : DataProto α β) : List (PyStr × List α) :=
  match data.batch with
  | some batch => batch.tensors
  | none => []

/-- A failed assertion about `key`. -/
def assertion (key : PyStr) (msg : String) : PyErr := ⟨.assertionError, key ++ PyStr.ofString msg⟩

/-- The constructor, with `check_consistency`. -/
def DataProto.new (batch : Option (TensorDict α)) (nonTensorBatch : List (PyStr × List β))
    (metaInfo : ℕ) : Except PyErr (DataProto α β) :=
  match batch with
  | none => .ok ⟨none, nonTensorBatch, metaInfo⟩
  | some batch =>
    match nonTensorBatch.find? fun c => c.2.length ≠ batch.batch_size with
    | none => .ok ⟨some batch, nonTensorBatch, metaInfo⟩
    | some (key, _) => .error (assertion key " length is not equal to batch size")

/-- All columns have as many rows as the batch. -/
structure DataProto.Consistent (data : DataProto α β) : Prop where
  tensors : ∀ batch, data.batch = some batch → ∀ c ∈ batch.tensors, c.2.length = batch.batch_size
  non_tensor : ∀ c ∈ data.non_tensor_batch, c.2.length = data.len

/-- The same operation on each column. -/
def mapColumns (f : List γ → Except PyErr (List γ)) (columns : List (PyStr × List γ)) :
    Except PyErr (List (PyStr × List γ)) :=
  columns.mapM fun c => do
    let rows ← f c.2
    .ok (c.1, rows)

/-- The same operation on the tensors, if there are any. -/
def mapBatch (f : TensorDict α → Except PyErr (TensorDict α)) :
    Option (TensorDict α) → Except PyErr (Option (TensorDict α))
  | none => .ok none
  | some batch => (f batch).map some

/-! ### Slices -/

/-- What `slice` is called with. -/
inductive SliceArg where
  | none
  | int (n : ℤ)
  | list (indices : List ℕ)

/-- A bound of a slice object, where it is used. -/
def SliceArg.index : SliceArg → Except PyErr (Option ℤ)
  | .none => .ok Option.none
  | .int n => .ok (some n)
  | .list _ => throw .typeError "slice indices must be integers or None or have an __index__ method"

/-- The rows of a slice with bounds `start`, `stop` and step `step ≠ 0`: `slice.indices`. -/
def sliceRange (start stop : Option ℤ) (step : ℤ) (n : ℕ) : List ℕ :=
  let low : ℤ := if step < 0 then -1 else 0
  let high : ℤ := if step < 0 then n - 1 else n
  let clip (bound : ℤ) : ℤ := max low (min high (if bound < 0 then bound + n else bound))
  let first := match start with | some a => clip a | none => if step < 0 then high else low
  let last := match stop with | some b => clip b | none => if step < 0 then low else high
  let count := if 0 < step then ((last - first + step - 1) / step).toNat
    else ((first - last - step - 1) / -step).toNat
  (List.range count).map fun k => (first + k * step).toNat

def sliceIndices (start stop step : SliceArg) (n : ℕ) : Except PyErr (List ℕ) := do
  let step := (← step.index).getD 1
  let start ← start.index
  let stop ← stop.index
  if step = 0 then throw .valueError "slice step cannot be zero"
  else .ok (sliceRange start stop step n)

/-- `self.batch[slice_obj]`. A tensor has no slices of negative step. -/
def TensorDict.slice (batch : TensorDict α) (start stop step : SliceArg) :
    Except PyErr (TensorDict α) := do
  let indices ← sliceIndices start stop step batch.batch_size
  let step := (← step.index).getD 1
  let tensors ← mapColumns (fun rows =>
    if step < 0 then throw .valueError "step must be greater than zero"
    else indices.mapM (item rows)) batch.tensors
  .ok ⟨indices.length, tensors⟩

/-- `val[slice_obj]`. -/
def sliceRows (start stop step : SliceArg) (rows : List γ) : Except PyErr (List γ) := do
  let indices ← sliceIndices start stop step rows.length
  indices.mapM (item rows)

def DataProto.slice (data : DataProto α β) (start stop step : SliceArg) :
    Except PyErr (DataProto α β) := do
  let slicedBatch ← mapBatch (·.slice start stop step) data.batch
  let slicedNonTensor ← mapColumns (sliceRows start stop step) data.non_tensor_batch
  DataProto.new slicedBatch slicedNonTensor data.meta_info

/-- The call `data.slice(indices)` of the hooks. -/
def DataProto.sliceList (data : DataProto α β) (indices : List ℕ) : Except PyErr (DataProto α β) :=
  data.slice (.list indices) .none .none

/-! ### Selection by index -/

/-- `idxs.type(torch.int32)`. -/
def int32 (i : ℤ) : ℤ := (i + 2147483648) % 4294967296 - 2147483648

/-- `rows[i]`: a negative index counts from the end. -/
def itemAt (rows : List γ) (i : ℤ) : Except PyErr γ :=
  let i := if i < 0 then i + rows.length else i
  if i < 0 then throw .indexError "index out of range" else item rows i.toNat

/-- The rows `idxs` of the tensors. -/
def TensorDict.selectIdxs (batch : TensorDict α) (idxs : List ℤ) : Except PyErr (TensorDict α) := do
  let tensors ← mapColumns (fun rows => idxs.mapM (itemAt rows)) batch.tensors
  .ok ⟨idxs.length, tensors⟩

def DataProto.selectIdxs (data : DataProto α β) (idxs : List ℤ) : Except PyErr (DataProto α β) := do
  let idxs := idxs.map int32
  let selectedBatch ← mapBatch (·.selectIdxs idxs) data.batch
  let selectedNonTensor ←
    mapColumns (fun rows => idxs.mapM (itemAt rows)) data.non_tensor_batch
  DataProto.new selectedBatch selectedNonTensor data.meta_info

/-- `data[indices]`. -/
def DataProto.getList (data : DataProto α β) (indices : List ℕ) : Except PyErr (DataProto α β) :=
  data.selectIdxs (indices.map (↑))

/-! ### Repetition -/

def repeatColumn (times : ℕ) (interleave : Bool) (rows : List γ) : List γ :=
  if interleave then repeatInterleave times rows else (List.replicate times rows).flatten

def DataProto.repeatRows (data : DataProto α β) (times : ℕ) (interleave : Bool) :
    Except PyErr (DataProto α β) :=
  let repeatedBatch := data.batch.map fun batch =>
    { batch_size := batch.batch_size * times
      tensors := batch.tensors.map fun c => (c.1, repeatColumn times interleave c.2) }
  let repeatedNonTensor :=
    data.non_tensor_batch.map fun c => (c.1, repeatColumn times interleave c.2)
  DataProto.new repeatedBatch repeatedNonTensor data.meta_info

/-! ### Union -/

/-- The dictionary at `r`. -/
def Heap.read (heap : Heap) (r : ℕ) : List (PyStr × PyVal) := heap.getD r []

/-- A new dictionary. -/
def alloc (items : List (PyStr × PyVal)) : Prog PyErr Heap ℕ :=
  fun heap => (.ok heap.length, heap ++ [items])

/-- A key that is there already has to have an equal tensor. -/
def unionTensors [BEq α] (tensors : List (PyStr × List α)) :
    List (PyStr × List α) → Except PyErr (List (PyStr × List α))
  | [] => .ok tensors
  | (key, val) :: rest =>
    match tensors.lookup key with
    | none => unionTensors (tensors ++ [(key, val)]) rest
    | some old =>
      if old == val then unionTensors tensors rest
      else .error (assertion key " in tensor_dict1 and tensor_dict2 are not the same object")

def unionTensorDict [BEq α] :
    Option (TensorDict α) → Option (TensorDict α) → Except PyErr (TensorDict α)
  | some batch, some batch' =>
    if batch.batch_size = batch'.batch_size then do
      let tensors ← unionTensors batch.tensors batch'.tensors
      .ok ⟨batch.batch_size, tensors⟩
    else throw .assertionError "Two tensor dict must have identical batch size."
  | _, _ => throw .attributeError "'NoneType' object has no attribute 'batch_size'"

def unionNumpyDict [BEq β] (arrays : List (PyStr × List β)) :
    List (PyStr × List β) → Except PyErr (List (PyStr × List β))
  | [] => .ok arrays
  | (key, val) :: rest =>
    if (arrays.lookup key).all (· == val) then unionNumpyDict (dictSet arrays key val) rest
    else .error (assertion key " in tensor_dict1 and tensor_dict2 are not the same object.")

/-- `union_two_dict`, on the dictionary at `r`. What it has written stays when it fails. -/
def unionTwoDict (r : ℕ) : List (PyStr × PyVal) → Prog PyErr Heap Unit
  | [] => pure ()
  | (key, val) :: rest => fun heap =>
    let items := heap.read r
    if (items.lookup key).all (val.eq ·) then
      unionTwoDict r rest (heap.set r (dictSet items key val))
    else (.error (assertion key " in meta_dict1 and meta_dict2 are not the same object"), heap)

def DataProto.union [BEq α] [BEq β] (data other : DataProto α β) :
    Prog PyErr Heap (DataProto α β) := do
  let batch ← Prog.lift (unionTensorDict data.batch other.batch)
  let nonTensorBatch ← Prog.lift (unionNumpyDict data.non_tensor_batch other.non_tensor_batch)
  let heap ← Prog.get
  unionTwoDict data.meta_info (heap.read other.meta_info)
  pure ⟨some batch, nonTensorBatch, data.meta_info⟩

/-! ### Concatenation -/

/-- The rows of the other tensor dictionaries under `key`. -/
def rowsUnder (batches : List (TensorDict α)) (key : PyStr) : List α :=
  batches.flatMap fun batch => (batch.tensors.lookup key).getD []

/-- `torch.cat`, if the first batch has tensors. The keys have to be the same. -/
def catBatches : List (Option (TensorDict α)) → Except PyErr (Option (TensorDict α))
  | [] => throw .indexError "list index out of range"
  | none :: _ => .ok none
  | some batch :: rest =>
    match rest.mapM id with
    | none => throw .typeError "expected Tensor as element in argument 0, but got NoneType"
    | some rest =>
      let keys := batch.tensors.map Prod.fst
      let same (other : TensorDict α) : Bool :=
        keys.all ((other.tensors.map Prod.fst).contains ·) &&
          (other.tensors.map Prod.fst).all (keys.contains ·)
      if rest.all same then
        .ok (some ⟨((batch :: rest).map TensorDict.batch_size).sum,
          batch.tensors.map fun c => (c.1, rowsUnder (batch :: rest) c.1)⟩)
      else throw .keyError "got keys that are incompatible"

/-- One dictionary of `list_of_dict_to_dict_of_list`. -/
def appendItems (output : List (PyStr × List γ)) :
    List (PyStr × γ) → Except PyErr (List (PyStr × List γ))
  | [] => .ok output
  | (key, item) :: rest =>
    match output.lookup key with
    | some items => appendItems (dictSet output key (items ++ [item])) rest
    | none => .error (assertion key
        " is not present in the keys of the first dictionary in the list.")

def listOfDictToDictOfList (dicts : List (List (PyStr × γ))) :
    Except PyErr (List (PyStr × List γ)) :=
  match dicts with
  | [] => .ok []
  | first :: _ => dicts.foldlM appendItems (first.map fun c => (c.1, []))

/-- The metrics of one batch. -/
def metricsOf : PyVal → List PyVal
  | .null => []
  | .list xs => xs
  | v => [v]

/-- The items of one dictionary, merged. The second component collects the metrics. -/
def mergeItems (merged : List (PyStr × PyVal)) (metrics : List PyVal) :
    List (PyStr × PyVal) → Except PyErr (List (PyStr × PyVal) × List PyVal)
  | [] => .ok (merged, metrics)
  | (k, v) :: rest =>
    if k = "metrics" then mergeItems merged (metrics ++ metricsOf v) rest
    else
      match merged.lookup k with
      | some w =>
        if w.eq v then mergeItems merged metrics rest
        else .error ⟨.assertionError, "Conflicting values for meta_info key '" ++ k ++ "'"⟩
      | none => mergeItems (merged ++ [(k, v)]) metrics rest

/-- `d.items()`. -/
def itemsOf : PyVal → Except PyErr (List (PyStr × PyVal))
  | .dict items => .ok items
  | v => .error ⟨.attributeError, "'" ++ v.typeName ++ "' object has no attribute 'items'"⟩

/-- The `meta_info` of a concatenation. -/
def mergeMetaInfo (dicts : List (List (PyStr × PyVal))) : Except PyErr (List (PyStr × PyVal)) := do
  let (merged, metrics) ← dicts.foldlM (fun acc items => mergeItems acc.1 acc.2 items) ([], [])
  if metrics.isEmpty then .ok merged
  else do
    let columns ← listOfDictToDictOfList (← metrics.mapM itemsOf)
    .ok (merged ++ [(PyStr.ofString "metrics", PyVal.dict (columns.map fun c => (c.1, .list c.2)))])

def DataProto.concat (data : List (DataProto α β)) : Prog PyErr Heap (DataProto α β) := do
  let newBatch ← Prog.lift (catBatches (data.map DataProto.batch))
  let arrays ← Prog.lift (listOfDictToDictOfList (data.map DataProto.non_tensor_batch))
  let heap ← Prog.get
  let metaInfo ← Prog.lift (mergeMetaInfo (data.map fun d => heap.read d.meta_info))
  let r ← alloc metaInfo
  Prog.lift (DataProto.new newBatch (arrays.map fun c => (c.1, c.2.flatten)) r)

/-! ### Rounds -/

/-- What the agent loop workers return for a round: the rows, the timing, and the rest of
`meta_info`. -/
structure Output (α β : Type) where
  batch : Option (TensorDict α)
  non_tensor_batch : List (PyStr × List β)
  timing : PyVal
  meta_info : List (PyStr × PyVal)

/-- `AgentLoopManager.generate_sequences`, from what the workers do. The new `meta_info` starts with
the timing of the round. -/
def generateSequences (workers : DataProto α β → Except PyErr (Output α β))
    (prompts : DataProto α β) : Prog PyErr Heap (DataProto α β) := do
  let output ← Prog.lift (workers prompts)
  let r ← alloc (output.meta_info.foldl (fun d kv => dictSet d kv.1 kv.2)
    [("timing", output.timing)])
  pure ⟨output.batch, output.non_tensor_batch, r⟩

/-- What the hook calls besides the operations above. -/
structure Hooks (α β : Type) where
  /-- The selection of rows. -/
  select : DataProto α β → List ℕ → Except PyErr (DataProto α β)
  workers : DataProto α β → Except PyErr (Output α β)
  compute_response_mask : DataProto α β → Except PyErr (List α)
  /-- The reward tensor, row by row. -/
  extract_reward : DataProto α β → Except PyErr (List α)
  /-- `.sum(-1)` of a row. -/
  score : α → ℚ

/-- `batch[key] = val`. -/
def DataProto.setTensor (data : DataProto α β) (key : PyStr) (val : List α) : DataProto α β :=
  { data with
    batch := data.batch.map fun batch =>
      { batch with tensors := dictSet batch.tensors key val } }

/-- The response mask is computed unless the workers gave one. -/
def withResponseMask (hooks : Hooks α β) (data : DataProto α β) :
    Except PyErr (DataProto α β) :=
  if (data.tensors.lookup (PyStr.ofString "response_mask")).isSome then .ok data
  else do
    let mask ← hooks.compute_response_mask data
    .ok (data.setTensor "response_mask" mask)

/-- The rows `indices`, each `times` in a row. -/
def roundRows (select : DataProto α β → List ℕ → Except PyErr (DataProto α β))
    (data : DataProto α β) (indices : List ℕ) (times : ℕ) : Except PyErr (DataProto α β) := do
  let selected ← select data indices
  selected.repeatRows times true

section Rounds

variable [BEq α] [BEq β]

def roundBatch (hooks : Hooks α β) (batch genBatch : DataProto α β) (promptIndices : List ℕ)
    (times : ℕ) : Prog PyErr Heap (DataProto α β) := do
  let roundGen ← Prog.lift (roundRows hooks.select genBatch promptIndices times)
  let roundOutput ← generateSequences hooks.workers roundGen
  let roundBase ← Prog.lift (roundRows hooks.select batch promptIndices times)
  let roundBatch ← roundBase.union roundOutput
  Prog.lift (withResponseMask hooks roundBatch)

/-- `data.non_tensor_batch["uid"]`. -/
def uidsOf (data : DataProto α β) : Except PyErr (List β) :=
  match data.non_tensor_batch.lookup (PyStr.ofString "uid") with
  | some uids => .ok uids
  | none => throw .keyError "'uid'"

/-- The prompts that go on: those with too few rows, and those that failed on all of them. -/
def nextActive (hooks : Hooks α β) (uidValues candidateUids : List β) (rawScores : List α)
    (roundSize promptCount : ℕ) : Except PyErr (List ℕ) := do
  let keep ← (List.range promptCount).mapM fun promptIndex => do
    let uid ← item uidValues promptIndex
    let scores := ((candidateUids.zip rawScores).filter (·.1 == uid)).map (hooks.score ·.2)
    .ok ((decide (scores.length < roundSize) && decide (roundSize < 8)) ||
      (!scores.isEmpty && scores.all (fun score => decide (score < 1 / 2)) &&
        decide (roundSize < 8)))
  .ok (((List.range promptCount).zip keep).filterMap fun p => if p.2 then some p.1 else none)

def roundLoop (hooks : Hooks α β) (batch genBatch : DataProto α β) (uidValues : List β)
    (promptCount : ℕ) (collected : List (DataProto α β)) (active : List ℕ) :
    List (ℕ × ℕ) → Prog PyErr Heap (List (DataProto α β))
  | [] => pure collected
  | (roundSize, increment) :: rounds =>
    if active.isEmpty then pure collected
    else do
      let times := if 4 < roundSize then increment else 4
      let promptIndices := if roundSize = 4 then List.range promptCount else active
      let round ← roundBatch hooks batch genBatch promptIndices times
      let collected := collected ++ [round]
      let candidate ← DataProto.concat collected
      let rawScores ← Prog.lift (hooks.extract_reward candidate)
      let candidateUids ← Prog.lift (uidsOf candidate)
      let active ←
        Prog.lift (nextActive hooks uidValues candidateUids rawScores roundSize promptCount)
      roundLoop hooks batch genBatch uidValues promptCount collected active rounds

def generateBNdsrBatch (hooks : Hooks α β) (batch genBatch : DataProto α β) :
    Prog PyErr Heap (DataProto α β) := do
  let promptCount := genBatch.len
  let uidValues ← Prog.lift (uidsOf batch)
  let collected ← roundLoop hooks batch genBatch uidValues promptCount []
    (List.range promptCount) [(4, 4), (6, 2), (8, 2)]
  let finalBatch ← DataProto.concat collected
  let finalBatch ← Prog.lift (withResponseMask hooks finalBatch)
  let rawScores ← Prog.lift (hooks.extract_reward finalBatch)
  pure (finalBatch.setTensor "token_level_scores" rawScores)

end Rounds

/-! ### What selecting and repeating yield -/

/-- The entries at `indices`, column by column. -/
def rowsAt (columns : List (PyStr × List γ)) (indices : List ℕ) : List (PyStr × List (Option γ)) :=
  columns.map fun c => (c.1, indices.map fun i => c.2[i]?)

/-- All entries, column by column. -/
def allRows (columns : List (PyStr × List γ)) : List (PyStr × List (Option γ)) :=
  columns.map fun c => (c.1, c.2.map some)

/-- `out` has exactly the rows `indices` of `data`, in that order. -/
structure RowsOf (data : DataProto α β) (indices : List ℕ) (out : DataProto α β) : Prop where
  batch_size : out.batch.map TensorDict.batch_size = data.batch.map fun _ => indices.length
  tensors : allRows out.tensors = rowsAt data.tensors indices
  non_tensor : allRows out.non_tensor_batch = rowsAt data.non_tensor_batch indices

theorem DataProto.Consistent.tensor_length {data : DataProto α β} (h : data.Consistent) :
    ∀ c ∈ data.tensors, c.2.length = data.len := by
  intro c hc
  rw [DataProto.tensors] at hc
  split at hc
  · next batch hbatch =>
    rw [h.tensors batch hbatch c hc, DataProto.len, hbatch]
  · cases hc

theorem new_eq_ok {batch : Option (TensorDict α)} {arrays : List (PyStr × List β)} {r : ℕ}
    (h : ∀ td, batch = some td → ∀ c ∈ arrays, c.2.length = td.batch_size) :
    DataProto.new batch arrays r = .ok ⟨batch, arrays, r⟩ := by
  rcases batch with - | td
  · rfl
  · have hnone : arrays.find? (fun c => decide (c.2.length ≠ td.batch_size)) = none :=
      List.find?_eq_none.mpr fun c hc => by simp [h td rfl c hc]
    rw [DataProto.new, hnone]

theorem new_meta_info {batch : Option (TensorDict α)} {arrays : List (PyStr × List β)} {r : ℕ}
    {out : DataProto α β} (h : DataProto.new batch arrays r = .ok out) : out.meta_info = r := by
  rcases batch with - | td
  · rw [← Except.ok.inj h]
  · rw [DataProto.new] at h
    split at h
    · rw [← Except.ok.inj h]
    · cases h

/-- An operation that succeeds on each column succeeds on all of them. -/
theorem exists_mapColumns (f : List γ → Except PyErr (List γ)) (indices : List ℕ)
    {columns : List (PyStr × List γ)}
    (h : ∀ c ∈ columns, ∃ rows, f c.2 = .ok rows ∧ rows.map some = indices.map fun i => c.2[i]?) :
    ∃ out, mapColumns f columns = .ok out ∧ allRows out = rowsAt columns indices ∧
      ∀ c ∈ out, c.2.length = indices.length := by
  induction columns with
  | nil => exact ⟨[], rfl, rfl, by simp⟩
  | cons c columns ih =>
    obtain ⟨⟨rows, hrows, hmap⟩, hcolumns⟩ := List.forall_mem_cons.mp h
    obtain ⟨out, hout, hall, hlen⟩ := ih hcolumns
    refine ⟨(c.1, rows) :: out, ?_, ?_, ?_⟩
    · rw [mapColumns] at hout ⊢
      rw [List.mapM_cons, hrows, hout]
      rfl
    · rw [allRows, rowsAt, List.map_cons, List.map_cons, hmap]
      exact congrArg _ hall
    · refine List.forall_mem_cons.mpr ⟨?_, hlen⟩
      simpa using congrArg List.length hmap

theorem int32_of_lt {i : ℕ} (h : i < 2147483648) : int32 i = i := by
  rw [int32]
  omega

theorem itemAt_natCast (rows : List γ) (i : ℕ) : itemAt rows i = item rows i := by
  have hneg : ¬(i : ℤ) < 0 := by omega
  rw [itemAt]
  simp only [hneg, if_false, Int.toNat_natCast]

/-- **Selection by index** yields the rows that are asked for. -/
theorem selectIdxs_rowsOf {data : DataProto α β} (hdata : data.Consistent)
    (hsize : data.len ≤ 2147483648) {indices : List ℕ} (hrange : ∀ i ∈ indices, i < data.len) :
    ∃ out, data.getList indices = .ok out ∧ RowsOf data indices out := by
  have hidxs : (indices.map (↑)).map int32 = indices.map ((↑) : ℕ → ℤ) := by
    rw [List.map_map]
    refine List.map_congr_left fun i hi => ?_
    rw [Function.comp_apply, int32_of_lt (lt_of_lt_of_le (hrange i hi) hsize)]
  have hcolumn : ∀ {δ : Type} (rows : List δ), rows.length = data.len →
      ∃ out, (indices.map ((↑) : ℕ → ℤ)).mapM (itemAt rows) = .ok out ∧
        out.map some = indices.map fun i => rows[i]? := by
    intro δ rows hrows
    rw [List.mapM_map]
    simp only [Function.comp_def, itemAt_natCast]
    exact exists_mapM_item fun i hi => by rw [hrows]; exact hrange i hi
  obtain ⟨tensors, htensors, hrows, -⟩ :=
    exists_mapColumns (fun rows => (indices.map ((↑) : ℕ → ℤ)).mapM (itemAt rows)) indices
      fun c hc => hcolumn c.2 (hdata.tensor_length c hc)
  obtain ⟨arrays, harrays, harows, hlen⟩ :=
    exists_mapColumns (fun rows => (indices.map ((↑) : ℕ → ℤ)).mapM (itemAt rows)) indices
      fun c hc => hcolumn c.2 (hdata.non_tensor c hc)
  have hlenIdxs : (indices.map ((↑) : ℕ → ℤ)).length = indices.length := List.length_map _
  rw [DataProto.getList, DataProto.selectIdxs, hidxs, harrays]
  rw [DataProto.tensors] at htensors hrows
  rcases hbatch : data.batch with - | batch
  · refine ⟨⟨none, arrays, data.meta_info⟩, rfl, ?_⟩
    exact ⟨by rw [hbatch]; rfl, by rw [DataProto.tensors, DataProto.tensors, hbatch]; rfl, harows⟩
  · rw [hbatch] at htensors hrows
    have hselect : batch.selectIdxs (indices.map (↑)) = .ok ⟨indices.length, tensors⟩ := by
      rw [TensorDict.selectIdxs, htensors, hlenIdxs]
      rfl
    have hnew : DataProto.new (some ⟨indices.length, tensors⟩) arrays data.meta_info =
        .ok ⟨some ⟨indices.length, tensors⟩, arrays, data.meta_info⟩ :=
      new_eq_ok fun td htd c hc => by rw [← Option.some.inj htd]; exact hlen c hc
    refine ⟨⟨some ⟨indices.length, tensors⟩, arrays, data.meta_info⟩, ?_, ?_⟩
    · rw [mapBatch, hselect]
      exact hnew
    · exact ⟨by rw [hbatch]; rfl, by rw [DataProto.tensors, DataProto.tensors, hbatch]; exact hrows,
        harows⟩

theorem length_of_allRows {columns columns' : List (PyStr × List γ)} {indices : List ℕ}
    (h : allRows columns = rowsAt columns' indices) : ∀ c ∈ columns, c.2.length =
    indices.length := by
  intro c hc
  have hmem : (c.1, c.2.map some) ∈ rowsAt columns' indices := h ▸ List.mem_map.mpr ⟨c, hc, rfl⟩
  obtain ⟨c', -, heq⟩ := List.mem_map.mp hmem
  simpa using congrArg (fun p => p.2.length) heq.symm

theorem RowsOf.size {data out : DataProto α β} {indices : List ℕ} (h : RowsOf data indices out)
    {batch : TensorDict α} (hbatch : out.batch = some batch) :
    batch.batch_size = indices.length := by
  have hsize := h.batch_size
  rw [hbatch] at hsize
  rcases hd : data.batch with - | batch'
  · rw [hd] at hsize
    cases hsize
  · rw [hd] at hsize
    exact Option.some.inj hsize

/-- What has exactly the selected rows has columns of one length. -/
theorem RowsOf.consistent {data out : DataProto α β} {indices : List ℕ}
    (h : RowsOf data indices out) : out.Consistent where
  tensors := by
    intro batch hbatch c hc
    have htensors := h.tensors
    rw [DataProto.tensors, hbatch] at htensors
    rw [length_of_allRows htensors c hc, h.size hbatch]
  non_tensor := by
    intro c hc
    have hlen := length_of_allRows h.non_tensor
    rw [hlen c hc, DataProto.len]
    split
    · next batch _ hbatch => exact (h.size hbatch).symm
    · next head val rest _ harrays =>
      rw [harrays] at hlen
      exact (hlen _ List.mem_cons_self).symm
    · next _ harrays =>
      rw [harrays] at hc
      cases hc

theorem map_repeatInterleave {δ : Type} (f : γ → δ) (times : ℕ) (rows : List γ) :
    (repeatInterleave times rows).map f = repeatInterleave times (rows.map f) := by
  simp only [repeatInterleave, List.map_flatMap, List.flatMap_map, List.map_replicate]

/-- **Repetition** repeats each selected row. -/
theorem repeatRows_rowsOf {data out : DataProto α β} {indices : List ℕ}
    (hout : RowsOf data indices out) (times : ℕ) :
    ∃ rep, out.repeatRows times true = .ok rep ∧
      RowsOf data (repeatInterleave times indices) rep := by
  have hcolumns : ∀ {δ : Type} (columns columns' : List (PyStr × List δ)),
      allRows columns = rowsAt columns' indices →
        allRows (columns.map fun c => (c.1, repeatColumn times true c.2)) =
          rowsAt columns' (repeatInterleave times indices) := by
    intro δ columns columns' h
    have hall : allRows (columns.map fun c => (c.1, repeatColumn times true c.2)) =
        (allRows columns).map fun c => (c.1, repeatInterleave times c.2) := by
      simp [allRows, repeatColumn, map_repeatInterleave]
    rw [hall, h, rowsAt, rowsAt, List.map_map]
    refine List.map_congr_left fun c _ => ?_
    rw [Function.comp_apply, map_repeatInterleave]
  have hlength : ∀ {δ : Type} (rows : List δ),
      (repeatInterleave times rows).length = rows.length * times := by
    intro δ rows
    simp [repeatInterleave, List.length_flatMap]
  refine ⟨_, new_eq_ok ?_, ?_, ?_, hcolumns _ _ hout.non_tensor⟩
  · intro td htd c hc
    obtain ⟨batch, hbatch, rfl⟩ := Option.map_eq_some_iff.mp htd
    obtain ⟨c', hc', rfl⟩ := List.mem_map.mp hc
    have hlen : c'.2.length = batch.batch_size := by
      rw [hout.consistent.non_tensor c' hc', DataProto.len, hbatch]
    show (repeatColumn times true c'.2).length = batch.batch_size * times
    rw [repeatColumn, if_pos rfl, hlength, hlen]
  · have hsize := congrArg (Option.map (· * times)) hout.batch_size
    rw [Option.map_map, Option.map_map] at hsize
    rw [Option.map_map, hlength]
    exact hsize
  · have htensors := hcolumns _ _ hout.tensors
    rw [DataProto.tensors] at htensors ⊢
    rcases hb : out.batch with - | batch
    · rw [hb] at htensors
      exact htensors
    · rw [hb] at htensors
      exact htensors

/-! ### Joining the rounds -/

/-- One round: the rows it is drawn for, how often, and what the workers return. -/
structure Round (α β : Type) where
  indices : List ℕ
  times : ℕ
  output : Output α β

/-- The round has a row for each row it is drawn for, under the keys `keys` and `arrayKeys`, and
its own timing. -/
structure Round.Fits (data : DataProto α β) (keys arrayKeys : List PyStr) (round : Round α β) :
    Prop where
  indices : ∀ i ∈ round.indices, i < data.len
  batch : ∃ batch, round.output.batch = some batch ∧ batch.tensors.map Prod.fst = keys ∧
    batch.batch_size = round.indices.length * round.times ∧
    ∀ c ∈ batch.tensors, c.2.length = round.indices.length * round.times
  arrays : round.output.non_tensor_batch.map Prod.fst = arrayKeys ∧
    ∀ c ∈ round.output.non_tensor_batch, c.2.length = round.indices.length * round.times
  meta_info : round.output.meta_info = []

/-- The rows of `data` under `column` that the rounds are drawn for. -/
def baseRows (rounds : List (Round α β)) (column : List γ) : List (Option γ) :=
  rounds.flatMap fun round => (repeatInterleave round.times round.indices).map fun i => column[i]?

/-- `out` has the rows of the rounds, one round after the other. -/
structure Joined (data : DataProto α β) (rounds : List (Round α β)) (keys : List PyStr)
    (out : DataProto α β) : Prop where
  tensors : ∀ c ∈ data.tensors, ∃ rows, out.tensors.lookup c.1 = some rows ∧
    rows.map some = baseRows rounds c.2
  non_tensor : ∀ c ∈ data.non_tensor_batch, ∃ rows,
    out.non_tensor_batch.lookup c.1 = some rows ∧ rows.map some = baseRows rounds c.2
  output : ∀ key ∈ keys, out.tensors.lookup key = some (rounds.flatMap fun round =>
    rowsUnder round.output.batch.toList key)

section Join

variable {select : DataProto α β → List ℕ → Except PyErr (DataProto α β)}

/-- A selection that hands the dictionary on. -/
def SharesMeta (select : DataProto α β → List ℕ → Except PyErr (DataProto α β)) : Prop :=
  ∀ data indices out, select data indices = .ok out → out.meta_info = data.meta_info

theorem sharesMeta_getList : SharesMeta (DataProto.getList : DataProto α β → _ → _) := by
  intro data indices out h
  rw [DataProto.getList, DataProto.selectIdxs] at h
  obtain ⟨_, -, h⟩ := bind_eq_ok.mp h
  obtain ⟨_, -, h⟩ := bind_eq_ok.mp h
  exact new_meta_info h

theorem roundRows_meta_info (hselect : SharesMeta select) {data out : DataProto α β}
    {indices : List ℕ} {times : ℕ} (h : roundRows select data indices times = .ok out) :
    out.meta_info = data.meta_info := by
  rw [roundRows] at h
  obtain ⟨selected, hsel, h⟩ := bind_eq_ok.mp h
  rw [DataProto.repeatRows] at h
  rw [new_meta_info h, hselect data indices selected hsel]

theorem generateSequences_run {output : Output α β} (hmeta : output.meta_info = [])
    (prompts : DataProto α β) (heap : Heap) :
    generateSequences (fun _ => .ok output) prompts heap =
      (.ok ⟨output.batch, output.non_tensor_batch, heap.length⟩,
        heap ++ [[(PyStr.ofString "timing", output.timing)]]) := by
  show (Except.ok _, heap ++ [_]) = _
  rw [hmeta]
  rfl

/-- A round without columns: a timing and nothing else. -/
def emptyRound (indices : List ℕ) (timing : PyVal) : Round α β :=
  { indices := indices, times := 1
    output := { batch := some ⟨indices.length, []⟩, non_tensor_batch := [], timing := timing,
                meta_info := [] } }

theorem emptyRound_fits {data : DataProto α β} {indices : List ℕ}
    (hrange : ∀ i ∈ indices, i < data.len) (timing : PyVal) :
    (emptyRound indices timing : Round α β).Fits data [] [] where
  indices := hrange
  batch := ⟨⟨indices.length, []⟩, rfl, rfl, (Nat.mul_one _).symm, by simp⟩
  arrays := ⟨rfl, by simp [emptyRound]⟩
  meta_info := rfl

variable [BEq α] [BEq β]

/-- A round is drawn and joined to the rows it is drawn for. -/
def joinRound (select : DataProto α β → List ℕ → Except PyErr (DataProto α β))
    (data : DataProto α β) (round : Round α β) : Prog PyErr Heap (DataProto α β) := do
  let output ← generateSequences (fun _ => .ok round.output) data
  let base ← Prog.lift (roundRows select data round.indices round.times)
  base.union output

def joinRounds (select : DataProto α β → List ℕ → Except PyErr (DataProto α β))
    (data : DataProto α β) : List (Round α β) → Prog PyErr Heap (List (DataProto α β))
  | [] => pure []
  | round :: rounds => do
    let joined ← joinRound select data round
    let rest ← joinRounds select data rounds
    pure (joined :: rest)

/-- What the hooks need of a selection of rows: it yields the rows that are asked for, `repeat`
repeats them, and any rounds with rows and keys that fit can be joined and put together. -/
structure RowOperations (select : DataProto α β → List ℕ → Except PyErr (DataProto α β))
    (data : DataProto α β) (indices : List ℕ) : Prop where
  selects : ∃ out, select data indices = .ok out ∧ RowsOf data indices out ∧
    ∀ times, ∃ rep, out.repeatRows times true = .ok rep ∧
      RowsOf data (repeatInterleave times indices) rep
  joins : ∀ (keys arrayKeys : List PyStr) (rounds : List (Round α β)) (heap : Heap),
    (∀ key ∈ keys, key ∉ data.tensors.map Prod.fst) →
    (∀ key ∈ arrayKeys, key ∉ data.non_tensor_batch.map Prod.fst) →
    rounds ≠ [] → (∀ round ∈ rounds, round.Fits data keys arrayKeys) →
    data.meta_info < heap.length →
      (heap.read data.meta_info).lookup (PyStr.ofString "timing") = none →
    ∃ out heap', (joinRounds select data rounds >>= DataProto.concat) heap = (.ok out, heap') ∧
      Joined data rounds keys out

/-- Only the dictionaries count for whether the dictionaries agree. -/
theorem union_run_ok {data other out : DataProto α β} {heap heap' : Heap}
    (h : data.union other heap = (.ok out, heap')) :
    unionTwoDict data.meta_info (heap.read other.meta_info) heap = (.ok (), heap') := by
  rw [DataProto.union] at h
  obtain ⟨_, _, hbatch, h⟩ := Prog.bind_run_ok.mp h
  obtain ⟨-, rfl⟩ := Prog.lift_run_ok.mp hbatch
  obtain ⟨_, _, harrays, h⟩ := Prog.bind_run_ok.mp h
  obtain ⟨-, rfl⟩ := Prog.lift_run_ok.mp harrays
  obtain ⟨_, _, hget, h⟩ := Prog.bind_run_ok.mp h
  rw [Prog.get, Prod.mk.injEq, Except.ok.injEq] at hget
  obtain ⟨rfl, rfl⟩ := hget
  obtain ⟨_, _, hunion, h⟩ := Prog.bind_run_ok.mp h
  rw [Prog.pure_run, Prod.mk.injEq] at h
  rw [hunion, h.2]

/-- **What joining a round writes.** The timing of the round has to equal a timing that is there
already, and it is there afterwards. -/
theorem joinRound_timing (hselect : SharesMeta select) {data out : DataProto α β}
    {round : Round α β} (hmeta : round.output.meta_info = []) {heap heap' : Heap}
    (hheap : data.meta_info < heap.length)
    (h : joinRound select data round heap = (.ok out, heap')) :
    (∀ timing, (heap.read data.meta_info).lookup (PyStr.ofString "timing") = some timing →
      round.output.timing.eq timing = true) ∧
    data.meta_info < heap'.length ∧
    (heap'.read data.meta_info).lookup (PyStr.ofString "timing") = some round.output.timing := by
  rw [joinRound] at h
  obtain ⟨output, heap₁, hgen, h⟩ := Prog.bind_run_ok.mp h
  rw [generateSequences_run hmeta, Prod.mk.injEq, Except.ok.injEq] at hgen
  obtain ⟨rfl, rfl⟩ := hgen
  obtain ⟨base, heap₂, hbase, h⟩ := Prog.bind_run_ok.mp h
  obtain ⟨hrows, rfl⟩ := Prog.lift_run_ok.mp hbase
  have hunion := union_run_ok h
  have hnew : Heap.read (heap ++ [[(PyStr.ofString "timing", round.output.timing)]])
      heap.length = [(PyStr.ofString "timing", round.output.timing)] := by
    simp [Heap.read, List.getD_eq_getElem?_getD]
  have hold : Heap.read (heap ++ [[(PyStr.ofString "timing", round.output.timing)]])
      data.meta_info = heap.read data.meta_info := by
    simp [Heap.read, List.getD_eq_getElem?_getD, List.getElem?_append_left hheap]
  rw [hnew, roundRows_meta_info hselect hrows, unionTwoDict] at hunion
  dsimp only at hunion
  rw [hold] at hunion
  split at hunion
  · next hagree =>
    rw [unionTwoDict, Prog.pure_run, Prod.mk.injEq] at hunion
    refine ⟨fun timing htiming => ?_, ?_, ?_⟩
    · rw [htiming] at hagree
      exact hagree
    · rw [← hunion.2, List.length_set, List.length_append]
      omega
    · have hlt : data.meta_info <
          (heap ++ [[(PyStr.ofString "timing", round.output.timing)]]).length := by
        rw [List.length_append]
        omega
      rw [← hunion.2, Heap.read, List.getD_eq_getElem?_getD, List.getElem?_set_self hlt,
        Option.getD_some, lookup_dictSet, if_pos rfl]
  · cases (Prod.mk.inj hunion).1

/-- **The second round.** With a selection that hands the dictionary on, two rounds of different
timings cannot both be joined. -/
theorem second_union_raises (hselect : SharesMeta select) {data : DataProto α β}
    {first second : Round α β} {rest : List (Round α β)}
    (hfirst : first.output.meta_info = []) (hsecond : second.output.meta_info = [])
    (htiming : second.output.timing.eq first.output.timing = false) {heap : Heap}
    (hheap : data.meta_info < heap.length) (joined : List (DataProto α β)) (heap' : Heap) :
    joinRounds select data (first :: second :: rest) heap ≠ (.ok joined, heap') := by
  intro h
  rw [joinRounds] at h
  obtain ⟨_, heap₁, hone, h⟩ := Prog.bind_run_ok.mp h
  obtain ⟨-, hheap₁, hwritten⟩ := joinRound_timing hselect hfirst hheap hone
  obtain ⟨_, _, hrest, -⟩ := Prog.bind_run_ok.mp h
  rw [joinRounds] at hrest
  obtain ⟨_, _, htwo, -⟩ := Prog.bind_run_ok.mp hrest
  have heq := (joinRound_timing hselect hsecond hheap₁ htwo).1 _ hwritten
  rw [htiming] at heq
  cases heq

/-- **One dictionary for all rounds** is not enough: no selection that hands it on is what the hooks
need, and selection by index is one of these. -/
theorem not_rowOperations_of_sharesMeta (hselect : SharesMeta select) {data : DataProto α β}
    {indices : List ℕ} (hrange : ∀ i ∈ indices, i < data.len) :
    ¬RowOperations select data indices := by
  intro h
  let heap : Heap := List.replicate (data.meta_info + 1) []
  have hheap : data.meta_info < heap.length := by
    rw [List.length_replicate]
    omega
  have hempty : heap.read data.meta_info = [] := by
    simp [heap, Heap.read, List.getD_eq_getElem?_getD]
  obtain ⟨out, heap', hrun, -⟩ := h.joins [] []
    [emptyRound indices (.int 0), emptyRound indices (.int 1)] heap (by simp) (by simp) (by simp)
    (by simp [emptyRound_fits hrange]) hheap (by rw [hempty]; rfl)
  obtain ⟨joined, heap₁, hjoined, -⟩ := Prog.bind_run_ok.mp hrun
  have htiming : (PyVal.int 1).eq (.int 0) = false := by decide
  exact second_union_raises hselect rfl rfl htiming hheap joined heap₁ hjoined

end Join

/-! ### Slices with a list for a bound -/

/-- **A batch with rows cannot be sliced with a list.** -/
theorem sliceList_raises {data : DataProto α β} (hlen : 0 < data.len) (indices : List ℕ) :
    ∃ e, data.sliceList indices = .error e ∧ e.cls = .typeError := by
  rw [DataProto.sliceList, DataProto.slice]
  rcases hbatch : data.batch with - | batch
  · rcases harrays : data.non_tensor_batch with - | ⟨c, arrays⟩
    · have hzero : data.len = 0 := by rw [DataProto.len, hbatch, harrays]
      omega
    · exact ⟨_, rfl, rfl⟩
  · exact ⟨_, rfl, rfl⟩

theorem len_pos_of_range {data : DataProto α β} {indices : List ℕ} (hne : indices ≠ [])
    (hrange : ∀ i ∈ indices, i < data.len) : 0 < data.len := by
  obtain ⟨i, hi⟩ := List.exists_mem_of_ne_nil indices hne
  exact lt_of_le_of_lt (Nat.zero_le i) (hrange i hi)

section Never

variable [BEq α] [BEq β]

/-- The first selection of the first round already raises. -/
theorem generateBNdsrBatch_raises {hooks : Hooks α β} (hhooks : hooks.select = DataProto.sliceList)
    {batch genBatch : DataProto α β} (hlen : 0 < genBatch.len) {uids : List β}
    (huids : uidsOf batch = .ok uids) (heap : Heap) :
    ∃ e, generateBNdsrBatch hooks batch genBatch heap = (.error e, heap) ∧ e.cls = .typeError := by
  obtain ⟨e, he, hcls⟩ := sliceList_raises hlen (List.range genBatch.len)
  refine ⟨e, ?_, hcls⟩
  have hactive : (List.range genBatch.len).isEmpty = false := by
    rw [List.isEmpty_eq_false_iff, ne_eq, List.range_eq_nil]
    omega
  have hrows : roundRows hooks.select genBatch (List.range genBatch.len) 4 = .error e := by
    rw [roundRows, hhooks, he]
    rfl
  have hround : roundBatch hooks batch genBatch (List.range genBatch.len) 4 heap =
      (.error e, heap) := by
    rw [roundBatch, Prog.bind_run, hrows]
    rfl
  rw [generateBNdsrBatch, Prog.bind_run, huids]
  simp only [Prog.lift]
  rw [Prog.bind_run, roundLoop, hactive]
  simp only [Bool.false_eq_true, if_false, Nat.lt_irrefl, if_true]
  rw [Prog.bind_run_of_error hround]

/-- **No batch and no list of rows** can be selected with `slice`: neither the operations nor the
rounds on top of them get beyond the first one. -/
theorem rowOperations_never (data : DataProto α β) (indices : List ℕ) (hne : indices ≠ [])
    (hrange : ∀ i ∈ indices, i < data.len) :
    ¬RowOperations DataProto.sliceList data indices ∧
      ∀ (hooks : Hooks α β) (batch : DataProto α β) (uids : List β) (heap : Heap),
        hooks.select = DataProto.sliceList → uidsOf batch = .ok uids →
        ∃ e, generateBNdsrBatch hooks batch data heap = (.error e, heap) ∧
          e.cls = .typeError := by
  have hlen := len_pos_of_range hne hrange
  refine ⟨fun h => ?_, fun hooks batch uids heap hhooks huids =>
    generateBNdsrBatch_raises hhooks hlen huids heap⟩
  obtain ⟨out, hout, -⟩ := h.selects
  obtain ⟨e, he, -⟩ := sliceList_raises hlen indices
  rw [hout] at he
  cases he

end Never

/-! ### A batch of two rows -/

def sampleData : DataProto ℕ ℕ := ⟨some ⟨2, []⟩, [(PyStr.ofString "uid", [10, 11])], 0⟩

theorem rowOperations_never_sample :
    ¬RowOperations DataProto.sliceList sampleData [1] ∧
      ∀ (hooks : Hooks ℕ ℕ) (batch : DataProto ℕ ℕ) (uids : List ℕ) (heap : Heap),
        hooks.select = DataProto.sliceList → uidsOf batch = .ok uids →
        ∃ e, generateBNdsrBatch hooks batch sampleData heap = (.error e, heap) ∧
          e.cls = .typeError :=
  rowOperations_never sampleData [1] (by decide) (by decide)

/-- Row `1` of the batch, which selection by index does find. -/
theorem sliceList_row : (∀ i ∈ [1], i < sampleData.len) ∧
    (∃ e, sampleData.sliceList [1] = .error e ∧ e.cls = .typeError) ∧
    ¬RowOperations DataProto.sliceList sampleData [1] ∧
    ∃ out, sampleData.getList [1] = .ok out ∧ out.non_tensor_batch =
      [(PyStr.ofString "uid", [11])] := by
  refine ⟨by decide, ⟨_, rfl, rfl⟩, fun h => ?_, ⟨_, rfl, rfl⟩⟩
  obtain ⟨out, hout, -⟩ := h.selects
  cases hout

end Protocol

end ToolAgent
