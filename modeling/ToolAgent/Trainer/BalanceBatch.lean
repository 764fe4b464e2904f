import ToolAgent.Library.Reordering
import ToolAgent.Trainer.DataProto
import ToolAgent.Trainer.SeqlenBalancing

/-!
# Balancing a batch over the ranks

`_balance_batch` of `verl.trainer.ppo.ray_trainer`: the rows of a batch are reordered before they
are dispatched, so that the equal chunks that the ranks get are about as much work.

Rows of one prompt are kept together with `use_prefix_grouper`, and with `keep_minibatch` each
mini-batch is distributed for itself. Otherwise all rows are.

## Main definitions

* `calculateWorkload`, `uidGroups`, `getGroupBalancedPartitions`
* `balanceBatch`
* `Dispatched` — what the ranks get

## Main results

* `globalPartitions_rows` — in each mode no row is lost or repeated
* `balanceBatch_iff` — when a batch is balanced, and how much work the ranks get
* `balanceBatch_modes` — what the other modes keep, and when the ranks get whole prompts
-/

namespace ToolAgent

namespace SeqlenBalancing

open Python Protocol

variable {α β : Type}

/-! ### Workloads -/

/-- `calculate_workload` -/
def calculateWorkload (seqlen : ℤ) : ℤ := 24576 * seqlen + seqlen ^ 2

theorem calculateWorkload_nonneg {s : ℤ} (h : 0 ≤ s) : 0 ≤ calculateWorkload s := by
  rw [calculateWorkload]
  positivity

theorem workloads_nonneg {seqlens : List ℤ} (h : ∀ s ∈ seqlens, 0 ≤ s) :
    ∀ w ∈ seqlens.map calculateWorkload, 0 ≤ w := by
  intro w hw
  obtain ⟨s, hs, rfl⟩ := List.mem_map.mp hw
  exact calculateWorkload_nonneg (h s hs)

/-! ### Groups of one prompt -/

section Groups

variable [DecidableEq β]

/-- The variables of the loop over the rows. -/
structure Scan (β : Type) where
  groups : List (List ℕ × ℤ)
  current_uid : Option β
  current_indices : List ℕ
  current_seqlen : ℤ

def Scan.start : Scan β := ⟨[], none, [], 0⟩

def Scan.row (st : Scan β) (i : ℕ) (seqlen : ℤ) (uid : β) : Scan β :=
  if some uid ≠ st.current_uid then
    ⟨if st.current_indices ≠ [] then st.groups ++ [(st.current_indices, st.current_seqlen)] else st.groups,
      some uid, [i], seqlen⟩
  else ⟨st.groups, st.current_uid, st.current_indices ++ [i], st.current_seqlen + seqlen⟩

/-- The last group is not forgotten. -/
def Scan.finish (st : Scan β) : List (List ℕ × ℤ) :=
  if st.current_indices ≠ [] then st.groups ++ [(st.current_indices, st.current_seqlen)] else st.groups

/-- The rows that follow each other with one uid. -/
def uidGroups (seqlen_list : List ℤ) (uid_list : List β) : List (List ℕ × ℤ) :=
  ((seqlen_list.zip uid_list).zipIdx.foldl (fun st r => st.row r.2 r.1.1 r.1.2) Scan.start).finish

def groupWorkload (seqlen_list : List ℤ) (indices : List ℕ) : ℤ :=
  (indices.map fun i => calculateWorkload (lengthOf seqlen_list i)).sum

def getGroupBalancedPartitions (seqlen_list : List ℤ) (uid_list : List β) (k_partitions : ℕ) :
    Except PyErr (List (List ℕ)) := do
  if seqlen_list.length ≠ uid_list.length then
    throw .assertionError "seqlen_list and uid_list must have same length"
  else
    let groups := uidGroups seqlen_list uid_list
    if groups.length < k_partitions then
      .error ⟨.assertionError, "Number of uid groups (" ++ text groups.length ++
        ") must be >= k_partitions (" ++ text k_partitions ++
        "). Consider reducing world_size or increasing batch_size."⟩
    else
      let group_workloads := groups.map fun g => groupWorkload seqlen_list g.1
      let group_partitions ← getSeqlenBalancedPartitions group_workloads k_partitions true
      .ok (group_partitions.map fun part =>
        (part.flatMap fun g => (groups.map Prod.fst).getD g []).insertionSort (· ≤ ·))

end Groups

/-! ### The method -/

/-- What the method reads of the trainer. -/
structure RayPPOTrainer (α : Type) where
  dp_size : ℕ
  use_prefix_grouper : Bool := false
  ppo_mini_batch_size : ℕ
  /-- The sum over a row of the attention mask. -/
  attended : α → ℕ

/-- `partition[::2] + partition[1::2][::-1]`, of the partition sorted by workload. -/
def endsFirst (workload : ℕ → ℤ) (partition : List ℕ) : List ℕ :=
  let sorted := partition.insertionSort fun x y =>
    workload x < workload y ∨ workload x = workload y ∧ x ≤ y
  Reordering.everyOther sorted ++ (Reordering.everyOther sorted.tail).reverse

/-- `keep_minibatch`: the partitions of each mini-batch are appended. -/
def minibatchPartitions (self : RayPPOTrainer α) (workload_lst : List ℤ) :
    Except PyErr (List (List ℕ)) := do
  if self.ppo_mini_batch_size = 0 then
    throw .zeroDivisionError "integer division or modulo by zero"
  else
    let size := self.ppo_mini_batch_size
    (List.range (workload_lst.length / size)).foldlM (fun global i => do
      let rearranged ←
        getSeqlenBalancedPartitions ((workload_lst.drop (i * size)).take size) self.dp_size true
      .ok (List.zipWith (· ++ ·) global (rearranged.map (List.map (· + size * i)))))
      (List.replicate self.dp_size [])

def globalPartitions [DecidableEq β] (self : RayPPOTrainer α) (keep_minibatch : Bool)
    (global_seqlen_lst : List ℤ) (uid : Option (List β)) : Except PyErr (List (List ℕ)) :=
  let workload_lst := global_seqlen_lst.map calculateWorkload
  match self.use_prefix_grouper, uid, keep_minibatch with
  | true, some uid_list, _ =>
    let num_groups := uid_list.dedup.length
    if self.dp_size = 0 then throw .zeroDivisionError "integer modulo by zero"
    else if num_groups % self.dp_size ≠ 0 then
      .error ⟨.valueError, "PrefixGrouper with balance_batch requires num_uid_groups (" ++
        text num_groups ++ ") % dp_size (" ++ text self.dp_size ++
        ") == 0. This ensures each rank gets equal number of groups. Current batch_size=" ++
        text global_seqlen_lst.length ++
        ", adjust batch_size to be a multiple of dp_size * rollout.n."⟩
    else getGroupBalancedPartitions global_seqlen_lst uid_list self.dp_size
  | _, _, true => minibatchPartitions self workload_lst
  | _, _, false => getSeqlenBalancedPartitions workload_lst self.dp_size true

/-- `DataProto.reorder`, which changes the batch in place. -/
def reorder (data : DataProto α β) (indices : List ℕ) : Except PyErr (DataProto α β) := do
  let batch ← mapBatch (fun batch => do
    let tensors ← mapColumns (fun rows => indices.mapM (item rows)) batch.tensors
    .ok ⟨indices.length, tensors⟩) data.batch
  let nonTensorBatch ← mapColumns (fun rows => indices.mapM (item rows)) data.non_tensor_batch
  .ok { data with batch := batch, non_tensor_batch := nonTensorBatch }

/-! ### Metrics -/

structure BalanceStats where
  min : ℤ
  max : ℤ
  minmax_diff : ℤ
  balanced_min : ℤ
  balanced_max : ℤ
  mean : ℚ

/-- `min(xs)`; no list is empty here. -/
def minOf (xs : List ℤ) : ℤ := xs.min?.getD 0

def maxOf (xs : List ℤ) : ℤ := xs.max?.getD 0

/-- `log_seqlen_unbalance` -/
def logSeqlenUnbalance (seqlen_list : List ℤ) (partitions : List (List ℕ)) :
    Except PyErr BalanceStats :=
  let n := seqlen_list.length
  if partitions.length = 0 then throw .zeroDivisionError "integer division or modulo by zero"
  else if n / partitions.length = 0 then throw .valueError "range() arg 3 must not be zero"
  else
    let batch_size := n / partitions.length
    let sums := (List.range ((n + batch_size - 1) / batch_size)).map fun c =>
      ((seqlen_list.drop (c * batch_size)).take batch_size).sum
    let balanced := partitions.map fun partition => (partition.map (lengthOf seqlen_list)).sum
    .ok {
      min := minOf sums
      max := maxOf sums
      minmax_diff := maxOf sums - minOf sums
      balanced_min := minOf balanced
      balanced_max := maxOf balanced
      mean := sums.sum / partitions.length }

/-- `batch.batch["attention_mask"]` -/
def attentionMask (data : DataProto α β) : Except PyErr (List α) :=
  match data.batch with
  | none => throw .typeError "'NoneType' object is not subscriptable"
  | some batch =>
    match batch.tensors.lookup (PyStr.ofString "attention_mask") with
    | some rows => .ok rows
    | none => throw .keyError "'attention_mask'"

/-- `torch.tensor(indices)` as an index: without an element it is a tensor of floats. -/
def globalIdx (indices : List ℕ) : Except PyErr (List ℕ) :=
  if indices = [] then
    throw .indexError "tensors used as indices must be long, int, byte or bool tensors"
  else .ok indices

/-- What `_balance_batch` does with the partitions. -/
def applyPartitions (self : RayPPOTrainer α) (data : DataProto α β) (global_seqlen_lst : List ℤ)
    (partitions : List (List ℕ)) : Except PyErr (DataProto α β × BalanceStats) := do
  let workload := lengthOf (global_seqlen_lst.map calculateWorkload)
  let global_partition_lst :=
    if self.use_prefix_grouper then partitions else partitions.map (endsFirst workload)
  let global_idx ← globalIdx global_partition_lst.flatten
  let reordered ← reorder data global_idx
  let stats ← logSeqlenUnbalance global_seqlen_lst global_partition_lst
  .ok (reordered, stats)

/-- `_balance_batch`: the batch as it is left, and the metrics. -/
def balanceBatch [DecidableEq β] (self : RayPPOTrainer α) (data : DataProto α β)
    (keep_minibatch : Bool) :
    Except PyErr (DataProto α β × BalanceStats) := do
  let attention_mask ← attentionMask data
  let global_seqlen_lst := attention_mask.map fun row => (self.attended row : ℤ)
  let uid := data.non_tensor_batch.lookup (PyStr.ofString "uid")
  let partitions ← globalPartitions self keep_minibatch global_seqlen_lst uid
  applyPartitions self data global_seqlen_lst partitions

/-! ### The order in a partition -/

section Order

variable {workload : ℕ → ℤ} {part : List ℕ}

theorem endsFirst_perm (workload : ℕ → ℤ) (part : List ℕ) : (endsFirst workload part).Perm part :=
  ((List.reverse_perm _).append_left _).trans
    ((Reordering.everyOther_perm _).trans (List.perm_insertionSort _ _))

theorem endsFirst_flatten_perm (workload : ℕ → ℤ) (parts : List (List ℕ)) :
    (parts.map (endsFirst workload)).flatten.Perm parts.flatten := by
  induction parts with
  | nil => exact .nil
  | cons part parts ih => exact (endsFirst_perm workload part).append ih

/-- **Light rows are at both ends.** -/
theorem endsFirst_ends (workload : ℕ → ℤ) (part : List ℕ) :
    ∃ up down, endsFirst workload part = up ++ down ∧
      up.Pairwise (fun x y => workload x ≤ workload y) ∧
      down.Pairwise fun x y => workload y ≤ workload x := by
  let r : ℕ → ℕ → Prop := fun x y => workload x < workload y ∨ workload x = workload y ∧ x ≤ y
  have : Std.Total r := ⟨fun a b => by simp only [r]; omega⟩
  have : IsTrans ℕ r := ⟨fun a b c hab hbc => by simp only [r] at *; omega⟩
  have hup : (part.insertionSort r).Pairwise fun x y => workload x ≤ workload y :=
    (List.pairwise_insertionSort r part).imp fun h => h.elim le_of_lt fun heq => heq.1.le
  refine ⟨_, _, rfl, hup.sublist (Reordering.everyOther_sublist _), List.pairwise_reverse.mpr ?_⟩
  exact hup.sublist ((Reordering.everyOther_sublist _).trans (List.tail_sublist _))

end Order

/-! ### Reordering a batch -/

theorem reorder_rowsOf {data : DataProto α β} (hdata : data.Consistent) (indices : List ℕ)
    (hrange : ∀ i ∈ indices, i < data.len) :
    ∃ out, reorder data indices = .ok out ∧ RowsOf data indices out := by
  obtain ⟨tensors, htensors, hrows, -⟩ :=
    exists_mapColumns (fun rows => indices.mapM (item rows)) indices fun c hc =>
      exists_mapM_item fun i hi => (hrange i hi).trans_eq (hdata.tensor_length c hc).symm
  obtain ⟨arrays, harrays, harows, -⟩ :=
    exists_mapColumns (fun rows => indices.mapM (item rows)) indices fun c hc =>
      exists_mapM_item fun i hi => (hrange i hi).trans_eq (hdata.non_tensor c hc).symm
  rw [DataProto.tensors] at htensors hrows
  rcases hbatch : data.batch with - | batch
  · rw [hbatch] at hrows
    refine ⟨⟨none, arrays, data.meta_info⟩, ?_, ?_⟩
    · rw [reorder, hbatch, harrays]
      rfl
    · exact ⟨by rw [hbatch]; rfl, by rw [DataProto.tensors, DataProto.tensors, hbatch]; rfl, harows⟩
  · rw [hbatch] at htensors hrows
    refine ⟨⟨some ⟨indices.length, tensors⟩, arrays, data.meta_info⟩, ?_, ?_⟩
    · rw [reorder, hbatch, mapBatch, htensors, harrays]
      rfl
    · exact ⟨by rw [hbatch]; rfl, by rw [DataProto.tensors, DataProto.tensors, hbatch]; exact hrows,
        harows⟩

/-! ### What the ranks get -/

section Dispatch

open Differencing

variable {self : RayPPOTrainer α} {data out : DataProto α β} {seqlens : List ℤ}
    {parts : List (List ℕ)}
  {stats : BalanceStats}

/-- **A balanced batch**: it has the rows of the batch before, each once, and cut into equal chunks
it gives one partition to each rank. The work of two ranks differs by no more than the work of two
rows does, and is at most twice what the ranks need to have. Each rank has light rows at both ends.
The metrics are about the tokens of the ranks. -/
structure Dispatched (self : RayPPOTrainer α) (seqlens : List ℤ) (data out : DataProto α β)
    (stats : BalanceStats) (parts : List (List ℕ)) : Prop where
  rows : RowsOf data parts.flatten out
  once : parts.flatten.Perm (List.range data.len)
  ranks : parts.length = self.dp_size ∧
    Chunks.chunks (data.len / self.dp_size) parts.flatten = parts
  close : ∀ D, (∀ s ∈ seqlens, ∀ t ∈ seqlens, calculateWorkload s ≤ calculateWorkload t + D) →
    Within (lengthOf (seqlens.map calculateWorkload)) D parts
  heaviest : ∀ other : List (List ℕ), other.length = self.dp_size →
    other.flatten.Perm (List.range data.len) → ∃ y ∈ other, ∀ x ∈ parts,
      weigh (lengthOf (seqlens.map calculateWorkload)) x ≤
        2 * weigh (lengthOf (seqlens.map calculateWorkload)) y
  ends : ∀ part ∈ parts, ∃ up down, part = up ++ down ∧
    up.Pairwise (fun x y => lengthOf (seqlens.map calculateWorkload) x ≤
      lengthOf (seqlens.map calculateWorkload) y) ∧
    down.Pairwise fun x y => lengthOf (seqlens.map calculateWorkload) y ≤
      lengthOf (seqlens.map calculateWorkload) x
  metrics : stats.mean * self.dp_size = seqlens.sum ∧ ∀ part ∈ parts,
    stats.balanced_min ≤ weigh (lengthOf seqlens) part ∧
      weigh (lengthOf seqlens) part ≤ stats.balanced_max

theorem minOf_le {xs : List ℤ} {x : ℤ} (h : x ∈ xs) : minOf xs ≤ x := by
  rw [minOf, List.min?_eq_some_min (List.ne_nil_of_mem h), Option.getD_some]
  exact List.min_le_of_mem h

theorem le_maxOf {xs : List ℤ} {x : ℤ} (h : x ∈ xs) : x ≤ maxOf xs := by
  rw [maxOf, List.max?_eq_some_max (List.ne_nil_of_mem h), Option.getD_some]
  exact List.le_max_of_mem h

theorem logSeqlenUnbalance_ok {n k : ℕ} (hk : 0 < k) (hn : 0 < n) (hlength : seqlens.length = n * k)
    (hparts : parts.length = k) : ∃ stats, logSeqlenUnbalance seqlens parts = .ok stats ∧
      stats.mean * k = seqlens.sum ∧
      ∀ part ∈ parts, stats.balanced_min ≤ weigh (lengthOf seqlens) part ∧
        weigh (lengthOf seqlens) part ≤ stats.balanced_max := by
  have hdiv : seqlens.length / k = n := by rw [hlength, Nat.mul_div_cancel n hk]
  have hcount : (seqlens.length + n - 1) / n = k := by
    rw [hlength, Nat.div_eq_iff hn, Nat.mul_comm n k]
    omega
  have hk' : (k : ℚ) ≠ 0 := Nat.cast_ne_zero.mpr hk.ne'
  have hchunks : ((List.range k).map fun c => ((seqlens.drop (c * n)).take n).sum).sum =
      seqlens.sum := by
    have hjoin : (Chunks.chunks n seqlens).flatten = seqlens :=
      Chunks.flatten_chunks hn (n := k) (by rw [hlength, Nat.mul_comm])
    conv_rhs => rw [← hjoin, List.sum_flatten, Chunks.chunks, hlength, Nat.mul_div_cancel_left k hn,
      List.map_map]
    rfl
  rw [logSeqlenUnbalance]
  simp only [hparts, if_neg hk.ne', hdiv, if_neg hn.ne', hcount]
  refine ⟨_, rfl, ?_, fun part hpart => ⟨?_, ?_⟩⟩
  · show ((((List.range k).map fun c => ((seqlens.drop (c * n)).take n).sum).sum : ℤ) : ℚ) / k * k =
      _
    rw [hchunks, div_mul_cancel₀ _ hk']
  · exact minOf_le (List.mem_map_of_mem hpart)
  · exact le_maxOf (List.mem_map_of_mem hpart)

theorem attentionMask_eq {masks : List α}
    (hmask : data.tensors.lookup (PyStr.ofString "attention_mask") = some masks) :
    attentionMask data = .ok masks := by
  rw [DataProto.tensors] at hmask
  rw [attentionMask]
  split at hmask
  · next batch hbatch =>
    rw [hbatch]
    show (match batch.tensors.lookup _ with | some rows => _ | none => _) = _
    rw [hmask]
  · cases hmask

theorem applyPartitions_dispatched (hdata : data.Consistent)
    (hgrouper : self.use_prefix_grouper = false)
    (hlength : seqlens.length = data.len) (hne : 0 < data.len)
    (hbalanced : Balanced (seqlens.map calculateWorkload) self.dp_size true parts)
    (pos : 0 < self.dp_size) :
    ∃ out stats, applyPartitions self data seqlens parts = .ok (out, stats) ∧
      Dispatched self seqlens data out stats
        (parts.map (endsFirst (lengthOf (seqlens.map calculateWorkload)))) := by
  let workload := lengthOf (seqlens.map calculateWorkload)
  have hcount : (seqlens.map calculateWorkload).length = data.len := by
    rw [List.length_map, hlength]
  have hrows : (parts.map (endsFirst workload)).flatten.Perm (List.range data.len) :=
    (endsFirst_flatten_perm workload parts).trans (hcount ▸ hbalanced.rows)
  have hmem : ∀ part ∈ parts.map (endsFirst workload), ∃ x ∈ parts, part.Perm x := by
    intro part hpart
    obtain ⟨x, hx, rfl⟩ := List.mem_map.mp hpart
    exact ⟨x, hx, endsFirst_perm workload x⟩
  have hsize : ∀ part ∈ parts.map (endsFirst workload), part.length = data.len / self.dp_size := by
    intro part hpart
    obtain ⟨x, hx, hperm⟩ := hmem part hpart
    rw [hperm.length_eq, ← hcount, ← hbalanced.sized rfl x hx, Nat.mul_div_cancel _ pos]
  have hdvd : data.len = data.len / self.dp_size * self.dp_size := by
    obtain ⟨x, hx⟩ := List.exists_mem_of_length_pos (hbalanced.length.symm ▸ pos : 0 < parts.length)
    have hx' := hbalanced.sized rfl x hx
    rw [hcount] at hx'
    rw [← hx', Nat.mul_div_cancel _ pos]
  have hchunk : 0 < data.len / self.dp_size := Nat.pos_of_ne_zero fun hzero => by
    rw [hzero, Nat.zero_mul] at hdvd
    omega
  have hindices : (parts.map (endsFirst workload)).flatten ≠ [] := fun hnil => by
    rw [hnil] at hrows
    exact hne.ne' (by simpa using hrows.length_eq.symm)
  obtain ⟨out, hout, hrowsOf⟩ := reorder_rowsOf hdata (parts.map (endsFirst workload)).flatten
    fun i hi => List.mem_range.mp (hrows.mem_iff.mp hi)
  have hpartsLength : (parts.map (endsFirst workload)).length = self.dp_size := by
    rw [List.length_map, hbalanced.length]
  obtain ⟨stats, hstats, hmetrics⟩ :=
    logSeqlenUnbalance_ok pos hchunk (hlength.trans hdvd) hpartsLength
  refine ⟨out, stats, ?_, ?_⟩
  · rw [applyPartitions, hgrouper]
    simp only [Bool.false_eq_true, if_false]
    rw [globalIdx, if_neg hindices, ok_bind, hout, ok_bind, hstats]
    rfl
  · constructor
    case rows => exact hrowsOf
    case once => exact hrows
    case ranks => exact ⟨hpartsLength, Chunks.chunks_flatten hchunk hsize⟩
    case close =>
      intro D hD part hpart other hother
      obtain ⟨x, hx, hxperm⟩ := hmem part hpart
      obtain ⟨y, hy, hyperm⟩ := hmem other hother
      rw [weigh_perm hxperm, weigh_perm hyperm]
      refine hbalanced.close D (fun v hv w hw => ?_) x hx y hy
      obtain ⟨s, hs, rfl⟩ := List.mem_map.mp hv
      obtain ⟨t, ht, rfl⟩ := List.mem_map.mp hw
      exact hD s hs t ht
    case heaviest =>
      intro other hother hperm
      obtain ⟨y, hy, hbound⟩ := hbalanced.heaviest other hother (hcount.symm ▸ hperm)
      refine ⟨y, hy, fun part hpart => ?_⟩
      obtain ⟨x, hx, hxperm⟩ := hmem part hpart
      rw [weigh_perm hxperm]
      exact hbound x hx
    case ends =>
      intro part hpart
      obtain ⟨x, hx, rfl⟩ := List.mem_map.mp hpart
      exact endsFirst_ends workload x
    case metrics => exact hmetrics

/-- **A batch is balanced** exactly if it is not empty and its rows can be shared by the ranks. -/
theorem balanceBatch_iff [DecidableEq β] (self : RayPPOTrainer α) {data : DataProto α β}
    {masks : List α}
    (hdata : data.Consistent) (hmask : data.tensors.lookup (PyStr.ofString "attention_mask") = some masks)
    (hgrouper : self.use_prefix_grouper = false) :
    (∃ out stats parts, balanceBatch self data false = .ok (out, stats) ∧
      Dispatched self (masks.map fun row => (self.attended row : ℤ)) data out stats parts) ↔
    0 < self.dp_size ∧ 0 < data.len ∧ self.dp_size ∣ data.len := by
  let seqlens := masks.map fun row => (self.attended row : ℤ)
  have hlength : seqlens.length = data.len := by
    rw [List.length_map]
    exact hdata.tensor_length _ (mem_of_lookup hmask)
  have hcount : (seqlens.map calculateWorkload).length = data.len := by
    rw [List.length_map, hlength]
  have hrun : balanceBatch self data false =
      getSeqlenBalancedPartitions (seqlens.map calculateWorkload) self.dp_size true >>=
        applyPartitions self data seqlens := by
    rw [balanceBatch, attentionMask_eq hmask, ok_bind]
    simp only [globalPartitions, hgrouper]
    rfl
  have hseqlens : ∀ s ∈ seqlens, 0 ≤ s := by
    intro s hs
    obtain ⟨row, -, rfl⟩ := List.mem_map.mp hs
    exact Int.natCast_nonneg _
  constructor
  · rintro ⟨out, stats, parts, h, -⟩
    rw [hrun] at h
    obtain ⟨partitions, hpartitions, -⟩ := bind_eq_ok.mp h
    obtain ⟨pos, hle, hdvd⟩ := conditions_of_ok hpartitions
    rw [hcount] at hle hdvd
    exact ⟨pos, pos.trans_le hle, hdvd rfl⟩
  · rintro ⟨pos, hne, hdvd⟩
    obtain ⟨partitions, hpartitions, hbalanced⟩ := getSeqlenBalancedPartitions_balanced true pos
      (hcount.symm ▸ Nat.le_of_dvd hne hdvd) (fun _ => hcount.symm ▸ hdvd)
        (workloads_nonneg hseqlens)
    obtain ⟨out, stats, happly, hdispatched⟩ :=
      applyPartitions_dispatched hdata hgrouper hlength hne hbalanced pos
    refine ⟨out, stats, _, ?_, hdispatched⟩
    rw [hrun, hpartitions]
    exact happly

end Dispatch

/-! ### Groups stay together -/

section Together

variable {uids : List β} {seqlens : List ℤ} {parts : List (List ℕ)} {k : ℕ}

/-- **After `m` rows**: they are in the groups in their order, and two neighbours of one uid are in
one group. -/
structure Scan.After (uids : List β) (m : ℕ) (st : Scan β) : Prop where
  rows : st.groups.flatMap Prod.fst ++ st.current_indices = List.range m
  current : ∀ i, i + 1 = m → st.current_uid = uids[i]? ∧ i ∈ st.current_indices
  together : ∀ i, i + 1 < m → uids[i]? = uids[i + 1]? →
    (∃ g ∈ st.groups, i ∈ g.1 ∧ i + 1 ∈ g.1) ∨ i ∈ st.current_indices ∧ i + 1 ∈ st.current_indices

theorem Scan.After.start : (Scan.start : Scan β).After uids 0 :=
  ⟨rfl, fun _ h => absurd h (Nat.succ_ne_zero _), fun _ h => absurd h (Nat.not_lt_zero _)⟩

/-- What is in a group is in it when the group is closed. -/
theorem Scan.closed_together {st : Scan β} {i j : ℕ}
    (h : (∃ g ∈ st.groups, i ∈ g.1 ∧ j ∈ g.1) ∨ i ∈ st.current_indices ∧ j ∈ st.current_indices) :
    ∃ g ∈ st.finish, i ∈ g.1 ∧ j ∈ g.1 := by
  rw [finish]
  rcases h with ⟨g, hg, hmem⟩ | hmem
  · refine ⟨g, ?_, hmem⟩
    split
    · exact List.mem_append_left _ hg
    · exact hg
  · rw [if_pos (List.ne_nil_of_mem hmem.1)]
    exact ⟨_, List.mem_append_right _ (List.mem_singleton_self _), hmem⟩

theorem Scan.finish_rows (st : Scan β) :
    st.finish.flatMap Prod.fst = st.groups.flatMap Prod.fst ++ st.current_indices := by
  rw [finish]
  split
  · rw [List.flatMap_append, List.flatMap_singleton]
  · next hnil =>
    rw [not_not] at hnil
    rw [hnil, List.append_nil]

/-- The closed groups and the open one have `n` rows each. -/
structure Scan.Sized (n : ℕ) (st : Scan β) : Prop where
  groups : ∀ g ∈ st.groups, g.1.length = n
  current : st.current_indices = [] ∨ st.current_indices.length = n

theorem Scan.Sized.finish {st : Scan β} {n : ℕ} (h : st.Sized n) :
    ∀ g ∈ st.finish, g.1.length = n := by
  rw [Scan.finish]
  split
  · next hne =>
    intro g hg
    rcases List.mem_append.mp hg with hg | hg
    · exact h.groups g hg
    · rw [List.mem_singleton.mp hg]
      exact h.current.resolve_left hne
  · exact h.groups

variable [DecidableEq β]

/-- **One row.** -/
theorem Scan.After.row {st : Scan β} {m : ℕ} (h : st.After uids m) (seqlen : ℤ) {uid : β}
    (huid : uids[m]? = some uid) : (st.row m seqlen uid).After uids (m + 1) := by
  have hneighbours (i : ℕ) (hi : i + 1 < m + 1) (heq : uids[i]? = uids[i + 1]?) :
      i + 1 = m ∧ st.current_uid = some uid ∨ i + 1 < m := by
    rcases Nat.lt_succ_iff_lt_or_eq.mp hi with hlt | hlast
    · exact .inr hlt
    · refine .inl ⟨hlast, ?_⟩
      rw [(h.current i hlast).1, heq, hlast, huid]
  rw [Scan.row]
  split
  · next hne =>
    have hclosed : (if st.current_indices ≠ [] then st.groups ++ [(st.current_indices, st.current_seqlen)]
        else st.groups) = st.finish := rfl
    rw [hclosed]
    refine ⟨?_, fun i hi => ?_, fun i hi heq => .inl ?_⟩
    · rw [st.finish_rows, h.rows, List.range_succ]
    · rw [Nat.succ_inj.mp hi]
      exact ⟨huid.symm, List.mem_singleton_self m⟩
    · rcases hneighbours i hi heq with ⟨-, hcurrent⟩ | hlt
      · exact absurd hcurrent.symm hne
      · exact Scan.closed_together (h.together i hlt heq)
  · next hsame =>
    rw [not_not] at hsame
    refine ⟨?_, fun i hi => ?_, fun i hi heq => ?_⟩
    · rw [← List.append_assoc, h.rows, List.range_succ]
    · rw [Nat.succ_inj.mp hi]
      exact ⟨hsame.symm.trans huid.symm, List.mem_append_right _ (List.mem_singleton_self m)⟩
    · rcases hneighbours i hi heq with ⟨hlast, -⟩ | hlt
      · refine .inr ⟨List.mem_append_left _ (h.current i hlast).2, List.mem_append_right _ ?_⟩
        rw [hlast]
        exact List.mem_singleton_self m
      · rcases h.together i hlt heq with hgroup | ⟨hi, hi'⟩
        · exact .inl hgroup
        · exact .inr ⟨List.mem_append_left _ hi, List.mem_append_left _ hi'⟩

/-- **All rows.** -/
theorem Scan.After.run (rows : List (ℤ × β)) : ∀ {st : Scan β} {m : ℕ}, st.After uids m →
    (∀ i, i < rows.length → uids[m + i]? = (rows.map Prod.snd)[i]?) →
    ((rows.zipIdx m).foldl (fun st r => st.row r.2 r.1.1 r.1.2) st).After uids
    (m + rows.length) := by
  induction rows with
  | nil => exact fun h _ => h
  | cons row rows ih =>
    intro st m h huids
    have hrow : uids[m]? = some row.2 := huids 0 (Nat.zero_lt_succ _)
    rw [List.zipIdx_cons, List.foldl_cons, List.length_cons, Nat.add_comm rows.length,
      ← Nat.add_assoc]
    refine ih (h.row row.1 hrow) fun i hi => ?_
    have hnext := huids (i + 1) (Nat.succ_lt_succ hi)
    rw [← Nat.add_assoc, Nat.add_right_comm] at hnext
    exact hnext

theorem uidGroups_after (hlength : seqlens.length = uids.length) :
    (uidGroups seqlens uids).flatMap Prod.fst = List.range uids.length ∧
      ∀ i, i + 1 < uids.length → uids[i]? = uids[i + 1]? →
        ∃ g ∈ uidGroups seqlens uids, i ∈ g.1 ∧ i + 1 ∈ g.1 := by
  have hzip : (seqlens.zip uids).length = uids.length := by rw [List.length_zip, hlength, min_self]
  have hafter := Scan.After.run (seqlens.zip uids) (.start : Scan.start.After uids 0) fun i _ => by
    rw [Nat.zero_add, List.map_snd_zip hlength.ge]
  rw [Nat.zero_add, hzip] at hafter
  refine ⟨?_, fun i hi heq => Scan.closed_together (hafter.together i hi heq)⟩
  rw [uidGroups, Scan.finish_rows]
  exact hafter.rows

/-- The rows of the open group are added to it. -/
theorem Scan.run_same {u : β} {rows : List ((ℤ × β) × ℕ)} (hrows : ∀ r ∈ rows, r.1.2 = u) :
    ∀ st : Scan β, st.current_uid = some u →
      let st' := rows.foldl (fun st r => st.row r.2 r.1.1 r.1.2) st
      st'.groups = st.groups ∧ st'.current_uid = some u ∧
        st'.current_indices.length = st.current_indices.length + rows.length := by
  induction rows with
  | nil => exact fun _ hst => ⟨rfl, hst, rfl⟩
  | cons r rows ih =>
    intro st hst
    obtain ⟨hr, hrows⟩ := List.forall_mem_cons.mp hrows
    have hrow : st.row r.2 r.1.1 r.1.2 =
        ⟨st.groups, st.current_uid, st.current_indices ++ [r.2], st.current_seqlen + r.1.1⟩ := by
      rw [Scan.row, hr, hst, if_neg (not_not.mpr rfl)]
    obtain ⟨hgroups, huid, hlength⟩ :=
      ih hrows (st.row r.2 r.1.1 r.1.2) (by rw [hrow]; exact hst)
    refine ⟨?_, huid, ?_⟩
    · rw [List.foldl_cons, hgroups, hrow]
    · rw [List.foldl_cons, hlength, hrow, List.length_append, List.length_singleton,
        List.length_cons]
      omega

/-- **`n` rows of each prompt** are in groups of `n` rows. -/
theorem Scan.Sized.run {n : ℕ} {prompts : List β} (hprompts : prompts.Nodup) :
    ∀ {rows : List ((ℤ × β) × ℕ)} {st : Scan β},
      rows.map (fun r => r.1.2) = prompts.flatMap (List.replicate (n + 1)) → st.Sized (n + 1) →
      (∀ u ∈ prompts, st.current_uid ≠ some u) →
      (rows.foldl (fun st r => st.row r.2 r.1.1 r.1.2) st).Sized (n + 1) := by
  induction prompts with
  | nil =>
    intro rows st hrows hst _
    rw [List.flatMap_nil, List.map_eq_nil_iff] at hrows
    rw [hrows]
    exact hst
  | cons u prompts ih =>
    intro rows st hrows hst hnew
    obtain ⟨hu, hprompts⟩ := List.nodup_cons.mp hprompts
    obtain ⟨hne, -⟩ := List.forall_mem_cons.mp hnew
    rw [List.flatMap_cons, List.replicate_succ, List.cons_append] at hrows
    obtain ⟨r, rest, rfl, hr, hrest⟩ := List.map_eq_cons_iff.mp hrows
    obtain ⟨same, others, rfl, hsame, hothers⟩ := List.map_eq_append_iff.mp hrest
    -- the first row of the prompt closes the group before
    have hrow : st.row r.2 r.1.1 r.1.2 = ⟨st.finish, some u, [r.2], r.1.1⟩ := by
      rw [Scan.row, hr, if_pos hne.symm]
      rfl
    have hlength : same.length = n := by simpa using congrArg List.length hsame
    have hprompt : ∀ r' ∈ same, r'.1.2 = u := fun r' hr' =>
      List.eq_of_mem_replicate (hsame ▸ List.mem_map_of_mem hr')
    obtain ⟨hgroups, huid, hcount⟩ :=
      Scan.run_same hprompt (st.row r.2 r.1.1 r.1.2) (by rw [hrow])
    rw [List.foldl_cons, List.foldl_append]
    refine ih hprompts hothers ⟨?_, .inr ?_⟩ fun v hv => ?_
    · rw [hgroups, hrow]
      exact hst.finish
    · rw [hcount, hrow, List.length_singleton, hlength, Nat.add_comm]
    · rw [huid]
      rintro ⟨⟩
      exact hu hv

theorem uidGroups_sized {n : ℕ} {prompts : List β} (hprompts : prompts.Nodup)
    (hlength : seqlens.length = uids.length)
    (huids : uids = prompts.flatMap (List.replicate (n + 1))) :
    ∀ g ∈ uidGroups seqlens uids, g.1.length = n + 1 := by
  refine Scan.Sized.finish (Scan.Sized.run hprompts ?_ ⟨List.forall_mem_nil _, .inl rfl⟩ fun u _ => ?_)
  · have hsnd : (fun r : (ℤ × β) × ℕ => r.1.2) = Prod.snd ∘ Prod.fst := rfl
    rw [hsnd, ← List.map_map, List.zipIdx_map_fst, List.map_snd_zip hlength.ge, huids]
  · exact (Option.some_ne_none u).symm

theorem flatMap_getD_range (groups : List (List ℕ)) :
    ((List.range groups.length).flatMap fun g => groups.getD g []) = groups.flatten := by
  rw [List.flatMap_def]
  congr 1
  refine List.ext_getElem? fun i => ?_
  rw [List.getElem?_map]
  rcases lt_or_ge i groups.length with hi | hi
  · rw [List.getElem?_range hi, Option.map_some, List.getD_eq_getElem?_getD,
      List.getElem?_eq_getElem hi,
      Option.getD_some]
  · rw [List.getElem?_eq_none_iff.mpr hi, List.getElem?_eq_none_iff.mpr (by rwa [List.length_range]),
      Option.map_none]

theorem groupWorkloads_nonneg (hnonneg : ∀ s ∈ seqlens, 0 ≤ s) (uids : List β) :
    ∀ w ∈ (uidGroups seqlens uids).map (fun g => groupWorkload seqlens g.1), 0 ≤ w := by
  intro w hw
  obtain ⟨g, -, rfl⟩ := List.mem_map.mp hw
  refine List.sum_nonneg fun v hv => ?_
  obtain ⟨i, -, rfl⟩ := List.mem_map.mp hv
  exact calculateWorkload_nonneg (lengthOf_nonneg hnonneg i)

/-- Partitions of groups are partitions of the rows that have the groups. -/
theorem getGroupBalancedPartitions_ok (hnonneg : ∀ s ∈ seqlens, 0 ≤ s)
    (h : getGroupBalancedPartitions seqlens uids k = .ok parts) :
    parts.length = k ∧ parts.flatten.Perm (List.range uids.length) ∧
      ∀ i, i + 1 < uids.length → uids[i]? = uids[i + 1]? →
        ∃ part ∈ parts, i ∈ part ∧ i + 1 ∈ part := by
  rw [getGroupBalancedPartitions] at h
  split at h
  · cases h
  · next hlength =>
    rw [not_not] at hlength
    dsimp only at h
    split at h
    · cases h
    · obtain ⟨groupParts, hgroupParts, heq⟩ := bind_eq_ok.mp h
      rw [Except.ok.injEq] at heq
      have hbalanced := balanced_of_ok (groupWorkloads_nonneg hnonneg uids) hgroupParts
      have hgroups := hbalanced.rows
      rw [List.length_map] at hgroups
      obtain ⟨hrange, htogether⟩ := uidGroups_after hlength
      have hflatten : parts.flatten.Perm
          (groupParts.flatten.flatMap fun g => ((uidGroups seqlens uids).map Prod.fst).getD g []) := by
        rw [← heq, ← List.flatMap_def, ← List.flatMap_id, List.flatMap_assoc]
        exact List.Perm.flatMap_left _ fun part _ => List.perm_insertionSort _ _
      refine ⟨?_, ?_, fun i hi huid => ?_⟩
      · rw [← heq, List.length_map, hbalanced.length]
      · refine hflatten.trans ((hgroups.flatMap_right _).trans (.of_eq ?_))
        have hcount : (uidGroups seqlens uids).length =
            ((uidGroups seqlens uids).map Prod.fst).length :=
          (List.length_map _).symm
        rw [hcount, flatMap_getD_range, ← List.flatMap_def]
        exact hrange
      · obtain ⟨g, hg, hmem⟩ := htogether i hi huid
        obtain ⟨c, hc, hgc⟩ := List.mem_iff_getElem.mp hg
        obtain ⟨part, hpart, hcpart⟩ :=
          List.mem_flatten.mp (hgroups.mem_iff.mpr (List.mem_range.mpr hc))
        have hget : ((uidGroups seqlens uids).map Prod.fst).getD c [] = g.1 := by
          rw [List.getD_eq_getElem?_getD, List.getElem?_map, List.getElem?_eq_getElem hc,
            Option.map_some,
            Option.getD_some, hgc]
        refine ⟨_, heq ▸ List.mem_map_of_mem hpart, ?_⟩
        rw [List.mem_insertionSort, List.mem_insertionSort, List.mem_flatMap, List.mem_flatMap]
        exact ⟨⟨c, hcpart, hget ▸ hmem.1⟩, ⟨c, hcpart, hget ▸ hmem.2⟩⟩

/-- Where the groups are of one size, the partitions are. -/
theorem getGroupBalancedPartitions_sized {n : ℕ} (hnonneg : ∀ s ∈ seqlens, 0 ≤ s)
    (hsized : ∀ g ∈ uidGroups seqlens uids, g.1.length = n)
    (h : getGroupBalancedPartitions seqlens uids k = .ok parts) :
    ∀ part ∈ parts, part.length * k = uids.length := by
  rw [getGroupBalancedPartitions] at h
  split at h
  · cases h
  · next hlength =>
    rw [not_not] at hlength
    dsimp only at h
    split at h
    · cases h
    · obtain ⟨groupParts, hgroupParts, heq⟩ := bind_eq_ok.mp h
      rw [Except.ok.injEq] at heq
      have hbalanced := balanced_of_ok (groupWorkloads_nonneg hnonneg uids) hgroupParts
      have hcount : (uidGroups seqlens uids).length * n = uids.length := by
        have hrange := congrArg List.length (uidGroups_after hlength).1
        rw [List.length_range, List.length_flatMap, List.map_congr_left hsized, List.map_const',
          List.sum_replicate_nat] at hrange
        exact hrange
      intro part hpart
      rw [← heq] at hpart
      obtain ⟨groupPart, hgroupPart, rfl⟩ := List.mem_map.mp hpart
      have hgroups : ∀ g ∈ groupPart,
          (((uidGroups seqlens uids).map Prod.fst).getD g []).length = n := by
        intro g hg
        have hlt := List.mem_range.mp (hbalanced.rows.mem_iff.mp
          (List.mem_flatten.mpr ⟨groupPart, hgroupPart, hg⟩))
        rw [List.length_map] at hlt
        rw [List.getD_eq_getElem?_getD, List.getElem?_map, List.getElem?_eq_getElem hlt,
          Option.map_some, Option.getD_some]
        exact hsized _ (List.getElem_mem hlt)
      have hshare := hbalanced.sized rfl groupPart hgroupPart
      rw [List.length_map] at hshare
      rw [List.length_insertionSort, List.length_flatMap, List.map_congr_left hgroups,
        List.map_const', List.sum_replicate_nat, ← hcount, ← hshare, Nat.mul_right_comm]

end Together

/-! ### Mini-batches are shared -/

section Minibatches

variable {self : RayPPOTrainer α} {workloads : List ℤ} {size k : ℕ} {parts : List (List ℕ)}

/-- The rows of mini-batch `b` in a partition. -/
def rowsOfMinibatch (size b : ℕ) (part : List ℕ) : ℕ := part.countP fun x => x / size = b

/-- **After `m` mini-batches**: their rows are distributed, and each mini-batch in equal shares. -/
structure Shared (size k m : ℕ) (global : List (List ℕ)) : Prop where
  length : global.length = k
  rows : global.flatten.Perm (List.range (m * size))
  sized : ∀ part ∈ global, part.length * k = m * size
  shares : ∀ b < m, ∀ part ∈ global, rowsOfMinibatch size b part * k = size

theorem rowsOfMinibatch_eq_zero {b m : ℕ} (hsize : 0 < size) (hb : m ≤ b) {part : List ℕ}
    (h : ∀ x ∈ part, x < m * size) : rowsOfMinibatch size b part = 0 := by
  rw [rowsOfMinibatch, List.countP_eq_zero]
  intro x hx
  rw [decide_eq_true_iff]
  have hlt : x / size < m := (Nat.div_lt_iff_lt_mul hsize).mpr (h x hx)
  omega

/-- The rows of a mini-batch after those before it. -/
theorem rowsOfMinibatch_shift {b m : ℕ} (hsize : 0 < size) {part : List ℕ}
    (h : ∀ x ∈ part, x < size) :
    rowsOfMinibatch size b (part.map (· + size * m)) = if b = m then part.length else 0 := by
  have hdiv : ∀ x ∈ part, (x + size * m) / size = m := by
    intro x hx
    rw [Nat.add_mul_div_left x m hsize, Nat.div_eq_of_lt (h x hx), Nat.zero_add]
  rw [rowsOfMinibatch, List.countP_map]
  split
  · next heq =>
    rw [List.countP_eq_length]
    intro x hx
    simp [hdiv x hx, heq]
  · next hne =>
    rw [List.countP_eq_zero]
    intro x hx
    simp [hdiv x hx, Ne.symm hne]

/-- **One mini-batch.** -/
theorem Shared.step {m : ℕ} {global rearranged : List (List ℕ)} {chunk : List ℤ} (hsize : 0 < size)
    (h : Shared size k m global) (hlength : chunk.length = size)
    (hbalanced : Balanced chunk k true rearranged) :
    Shared size k (m + 1) (List.zipWith (· ++ ·) global (rearranged.map (List.map (· + size * m)))) := by
  have hcount : global.length = (rearranged.map (List.map (· + size * m))).length := by
    rw [List.length_map, h.length, hbalanced.length]
  have hbelow : ∀ part ∈ rearranged, ∀ x ∈ part, x < size := fun part hpart x hx =>
    hlength ▸ List.mem_range.mp (hbalanced.rows.mem_iff.mp (List.mem_flatten.mpr ⟨part, hpart, hx⟩))
  -- a part is an old part and a new one
  have hparts : ∀ part ∈ List.zipWith (· ++ ·) global (rearranged.map (List.map (· + size * m))),
      ∃ old ∈ global, ∃ new ∈ rearranged, part = old ++ new.map (· + size * m) := by
    intro part hpart
    obtain ⟨c, hc, rfl⟩ := List.mem_iff_getElem.mp hpart
    rw [List.length_zipWith, ← hcount, min_self] at hc
    have hc' : c < rearranged.length := by rw [hcount, List.length_map] at hc; exact hc
    exact ⟨_, List.getElem_mem hc, _, List.getElem_mem hc', by
      rw [List.getElem_zipWith, List.getElem_map]⟩
  refine ⟨?_, ?_, fun part hpart => ?_, fun b hb part hpart => ?_⟩
  · rw [List.length_zipWith, ← hcount, min_self, h.length]
  · have hrearranged : (rearranged.map (List.map (· + size * m))).flatten.Perm
        ((List.range size).map (m * size + ·)) := by
      rw [← List.map_flatten]
      refine (hbalanced.rows.map _).trans (.of_eq ?_)
      rw [hlength]
      exact List.map_congr_left fun x _ => by rw [Nat.mul_comm, Nat.add_comm]
    rw [Nat.succ_mul, List.range_add]
    exact (Differencing.flatten_zipWith_perm hcount).trans (h.rows.append hrearranged)
  · obtain ⟨old, hold, new, hnew, rfl⟩ := hparts part hpart
    rw [List.length_append, List.length_map, Nat.add_mul, Nat.succ_mul, h.sized old hold,
      hbalanced.sized rfl new hnew, hlength]
  · obtain ⟨old, hold, new, hnew, rfl⟩ := hparts part hpart
    rw [rowsOfMinibatch, List.countP_append, ← rowsOfMinibatch, ← rowsOfMinibatch,
      rowsOfMinibatch_shift hsize (hbelow _ hnew)]
    rcases Nat.lt_succ_iff_lt_or_eq.mp hb with hlt | rfl
    · rw [if_neg (by omega), Nat.add_zero]
      exact h.shares b hlt _ hold
    · rw [if_pos rfl, rowsOfMinibatch_eq_zero hsize le_rfl fun x hx => List.mem_range.mp
        (h.rows.mem_iff.mp (List.mem_flatten.mpr ⟨_, hold, hx⟩)), Nat.zero_add]
      rw [hbalanced.sized rfl _ hnew, hlength]

theorem Shared.start (size k : ℕ) : Shared size k 0 (List.replicate k []) :=
  ⟨List.length_replicate, by simp, fun part hpart => by simp [List.eq_of_mem_replicate hpart],
    fun b hb => absurd hb (Nat.not_lt_zero b)⟩

/-- **All mini-batches.** -/
theorem minibatchPartitions_ok (hnonneg : ∀ w ∈ workloads, 0 ≤ w)
    (h : minibatchPartitions self workloads = .ok parts) :
    Shared self.ppo_mini_batch_size self.dp_size (workloads.length / self.ppo_mini_batch_size) parts := by
  rw [minibatchPartitions] at h
  split at h
  · cases h
  · next hne =>
    have hsize : 0 < self.ppo_mini_batch_size := Nat.pos_of_ne_zero hne
    let size := self.ppo_mini_batch_size
    let step : List (List ℕ) → ℕ → Except PyErr (List (List ℕ)) := fun global i => do
      let rearranged ←
        getSeqlenBalancedPartitions ((workloads.drop (i * size)).take size) self.dp_size true
      .ok (List.zipWith (· ++ ·) global (rearranged.map (List.map (· + size * i))))
    have hstep {m : ℕ} {global global' : List (List ℕ)} (hm : m < workloads.length / size)
        (hshared : Shared size self.dp_size m global) (hrun : step global m = .ok global') :
        Shared size self.dp_size (m + 1) global' := by
      obtain ⟨rearranged, hrearranged, heq⟩ := bind_eq_ok.mp hrun
      rw [Except.ok.injEq] at heq
      have hlength : ((workloads.drop (m * size)).take size).length = size := by
        have hle : (m + 1) * size ≤ workloads.length :=
          (Nat.mul_le_mul_right size hm).trans (Nat.div_mul_le_self _ _)
        rw [Nat.succ_mul] at hle
        rw [List.length_take, List.length_drop]
        omega
      have hbalanced := balanced_of_ok
        (fun w hw => hnonneg w (List.mem_of_mem_drop (List.mem_of_mem_take hw))) hrearranged
      exact heq ▸ hshared.step hsize hlength hbalanced
    have hrun : ∀ m ≤ workloads.length / size, ∀ global,
        (List.range m).foldlM step (List.replicate self.dp_size []) = .ok global →
        Shared size self.dp_size m global := by
      intro m
      induction m with
      | zero =>
        intro _ global hglobal
        cases hglobal
        exact Shared.start size self.dp_size
      | succ m ih =>
        intro hle global hglobal
        rw [List.range_succ, List.foldlM_append] at hglobal
        obtain ⟨before, hbefore, hlast⟩ := bind_eq_ok.mp hglobal
        rw [List.foldlM_cons] at hlast
        obtain ⟨after, hafter, hnil⟩ := bind_eq_ok.mp hlast
        cases hnil
        exact hstep hle (ih (Nat.le_of_succ_le hle) before hbefore) hafter
    exact hrun _ le_rfl parts h

end Minibatches

/-! ### The other modes -/

section Modes

variable {self : RayPPOTrainer α} {data out : DataProto α β} {stats : BalanceStats}
  {masks : List α} {keep_minibatch : Bool}

theorem reorder_ok {indices : List ℕ} (hdata : data.Consistent)
    (hrange : ∀ i ∈ indices, i < data.len)
    (h : reorder data indices = .ok out) : RowsOf data indices out := by
  obtain ⟨out', hout', hrows⟩ := reorder_rowsOf hdata indices hrange
  rw [h, Except.ok.injEq] at hout'
  exact hout' ▸ hrows

theorem Shared.endsFirst {size k m : ℕ} {parts : List (List ℕ)} (h : Shared size k m parts)
    (workload : ℕ → ℤ) : Shared size k m (parts.map (endsFirst workload)) where
  length := by rw [List.length_map, h.length]
  rows := (endsFirst_flatten_perm workload parts).trans h.rows
  sized part hpart := by
    obtain ⟨x, hx, rfl⟩ := List.mem_map.mp hpart
    rw [(endsFirst_perm workload x).length_eq]
    exact h.sized x hx
  shares b hb part hpart := by
    obtain ⟨x, hx, rfl⟩ := List.mem_map.mp hpart
    rw [rowsOfMinibatch, (endsFirst_perm workload x).countP_eq]
    exact h.shares b hb x hx

theorem globalIdx_eq_ok {indices indices' : List ℕ} :
    globalIdx indices = .ok indices' ↔ indices ≠ [] ∧ indices = indices' := by
  rw [globalIdx]
  split
  · next hnil =>
    refine ⟨fun h => ?_, fun h => absurd hnil h.1⟩
    cases h
  · next hne => exact ⟨fun h => ⟨hne, Except.ok.inj h⟩, fun h => congrArg Except.ok h.2⟩

/-- Neighbours of one uid are in one part. -/
def Together (uids : List β) (parts : List (List ℕ)) : Prop :=
  ∀ i, i + 1 < uids.length → uids[i]? = uids[i + 1]? → ∃ part ∈ parts, i ∈ part ∧ i + 1 ∈ part

/-- **Which chunks are the partitions**: the ranks get the partitions exactly when these are of one
size. -/
theorem chunks_flatten_iff {n k : ℕ} {parts : List (List ℕ)} (hk : 0 < k)
    (hcount : parts.length = k)
    (hrows : parts.flatten.length = n) (hn : 0 < n) :
    Chunks.chunks (n / k) parts.flatten = parts ↔ ∀ part ∈ parts, part.length * k = n := by
  constructor
  · intro h part hpart
    have hsize : ∀ x ∈ parts, x.length = n / k := fun x hx => by
      rw [← h] at hx
      exact Chunks.length_of_mem_chunks hx
    rw [List.length_flatten, List.map_congr_left hsize, List.map_const', List.sum_replicate_nat,
      hcount] at hrows
    rw [hsize part hpart, Nat.mul_comm]
    exact hrows
  · intro h
    have hsize : ∀ part ∈ parts, part.length = n / k := fun part hpart => by
      rw [← h part hpart, Nat.mul_div_cancel _ hk]
    obtain ⟨part, hpart⟩ := List.exists_mem_of_length_pos (hcount.symm ▸ hk : 0 < parts.length)
    refine Chunks.chunks_flatten (Nat.pos_of_ne_zero fun hzero => ?_) hsize
    have hempty := h part hpart
    rw [hsize part hpart, hzero, Nat.zero_mul] at hempty
    exact hn.ne hempty

/-- What a batch that is left consists of. -/
theorem applyPartitions_eq_ok {seqlens : List ℤ} {parts : List (List ℕ)}
    (h : applyPartitions self data seqlens parts = .ok (out, stats)) :
    let arranged := if self.use_prefix_grouper then parts
      else parts.map (endsFirst (lengthOf (seqlens.map calculateWorkload)))
    arranged.flatten ≠ [] ∧ reorder data arranged.flatten = .ok out := by
  intro arranged
  obtain ⟨indices, hindices, hrest⟩ := bind_eq_ok.mp h
  obtain ⟨reordered, hreorder, hlast⟩ := bind_eq_ok.mp hrest
  obtain ⟨stats', -, heq⟩ := bind_eq_ok.mp hlast
  have hout : reordered = out := congrArg Prod.fst (Except.ok.inj heq)
  obtain ⟨hne, rfl⟩ := globalIdx_eq_ok.mp hindices
  exact ⟨hne, hout ▸ hreorder⟩

section Parts

variable {seqlens : List ℤ} {parts : List (List ℕ)} (hdata : data.Consistent)
  (hlength : seqlens.length = data.len) (hseqlens : ∀ s ∈ seqlens, 0 ≤ s)
  (happly : applyPartitions self data seqlens parts = .ok (out, stats))

include hdata hlength hseqlens happly

/-- With `use_prefix_grouper` no row is lost, and neighbours of one uid are in one partition. -/
theorem applyPartitions_grouped [DecidableEq β] (hgrouper : self.use_prefix_grouper = true)
    {uids : List β} (huids : uids.length = data.len)
    (hparts : globalPartitions self keep_minibatch seqlens (some uids) = .ok parts) :
    RowsOf data parts.flatten out ∧ parts.length = self.dp_size ∧
      parts.flatten.Perm (List.range data.len) ∧ Together uids parts ∧
      (Chunks.chunks (data.len / self.dp_size) parts.flatten = parts ↔
        ∀ part ∈ parts, part.length * self.dp_size = data.len) ∧
      ∀ (prompts : List β) (n : ℕ), prompts.Nodup →
        uids = prompts.flatMap (List.replicate (n + 1)) →
        ∀ part ∈ parts, part.length * self.dp_size = data.len := by
  obtain ⟨hne, hreorder⟩ := applyPartitions_eq_ok happly
  simp only [hgrouper, if_true] at hreorder hne
  simp only [globalPartitions, hgrouper] at hparts
  split at hparts
  · cases hparts
  · next hdp =>
    split at hparts
    · cases hparts
    · obtain ⟨hcount, hrows, htogether⟩ := getGroupBalancedPartitions_ok hseqlens hparts
      rw [huids] at hrows
      have hlen : parts.flatten.length = data.len := by
        rw [hrows.length_eq, List.length_range]
      refine ⟨reorder_ok hdata (fun i hi => List.mem_range.mp (hrows.mem_iff.mp hi)) hreorder,
        hcount, hrows, htogether, ?_, fun prompts n hprompts hrepeat => ?_⟩
      · exact chunks_flatten_iff (Nat.pos_of_ne_zero hdp) hcount hlen
          (hlen ▸ List.length_pos_iff.mpr hne)
      · rw [← huids]
        exact getGroupBalancedPartitions_sized hseqlens
          (uidGroups_sized hprompts (hlength.trans huids.symm) hrepeat) hparts

/-- With `keep_minibatch`, each rank gets an equal share of each full mini-batch. -/
theorem applyPartitions_minibatches [DecidableEq β] {uid : Option (List β)}
    (hgrouper : self.use_prefix_grouper = false)
    (hparts : globalPartitions self true seqlens uid = .ok parts) :
    let full := data.len / self.ppo_mini_batch_size
    0 < full ∧ ∃ parts : List (List ℕ), RowsOf data parts.flatten out ∧
      Shared self.ppo_mini_batch_size self.dp_size full parts ∧
      Chunks.chunks (full * self.ppo_mini_batch_size / self.dp_size) parts.flatten = parts := by
  intro full
  obtain ⟨hne, hreorder⟩ := applyPartitions_eq_ok happly
  simp only [globalPartitions, hgrouper] at hparts
  have hshared := (minibatchPartitions_ok (workloads_nonneg hseqlens) hparts).endsFirst
    (lengthOf (seqlens.map calculateWorkload))
  rw [List.length_map, hlength] at hshared
  simp only [hgrouper, Bool.false_eq_true, if_false] at hreorder hne
  have hlen := hshared.rows.length_eq
  rw [List.length_range] at hlen
  have hpos : 0 < full * self.ppo_mini_batch_size := hlen ▸ List.length_pos_iff.mpr hne
  have hdp : 0 < self.dp_size := by
    rw [← hshared.length]
    exact List.length_pos_iff.mpr fun hnil => hne (by rw [hnil]; rfl)
  refine ⟨Nat.pos_of_mul_pos_right hpos, _, reorder_ok hdata (fun i hi => ?_) hreorder, hshared,
    (chunks_flatten_iff hdp hshared.length hlen hpos).mpr hshared.sized⟩
  exact (List.mem_range.mp (hshared.rows.mem_iff.mp hi)).trans_le (Nat.div_mul_le_self _ _)

end Parts

/-- **What the other modes keep**, when they return. With `use_prefix_grouper` no row is lost and
the partitions keep neighbours of one uid together. The ranks get equal chunks of the batch: these
are the partitions exactly when the partitions are of one size, as they are with the same number of
rows for each prompt. With `keep_minibatch` there is a full mini-batch, each rank gets an equal
share of each, and the rows after the last one are dropped. -/
theorem balanceBatch_modes [DecidableEq β] (hdata : data.Consistent)
    (hmask : data.tensors.lookup (PyStr.ofString "attention_mask") = some masks)
    (h : balanceBatch self data keep_minibatch = .ok (out, stats)) :
    (self.use_prefix_grouper = true → ∀ uids : List β,
      data.non_tensor_batch.lookup (PyStr.ofString "uid") = some uids →
      ∃ parts : List (List ℕ), RowsOf data parts.flatten out ∧ parts.length = self.dp_size ∧
        parts.flatten.Perm (List.range data.len) ∧ Together uids parts ∧
        (Chunks.chunks (data.len / self.dp_size) parts.flatten = parts ↔
          ∀ part ∈ parts, part.length * self.dp_size = data.len) ∧
        ∀ (prompts : List β) (n : ℕ), prompts.Nodup →
          uids = prompts.flatMap (List.replicate (n + 1)) →
          ∀ part ∈ parts, part.length * self.dp_size = data.len) ∧
    (self.use_prefix_grouper = false → keep_minibatch = true →
      let full := data.len / self.ppo_mini_batch_size
      0 < full ∧ ∃ parts : List (List ℕ), RowsOf data parts.flatten out ∧
        Shared self.ppo_mini_batch_size self.dp_size full parts ∧
        Chunks.chunks (full * self.ppo_mini_batch_size / self.dp_size) parts.flatten = parts) := by
  have hlength : (masks.map fun row => (self.attended row : ℤ)).length = data.len := by
    rw [List.length_map]
    exact hdata.tensor_length _ (mem_of_lookup hmask)
  have hseqlens : ∀ s ∈ masks.map fun row => (self.attended row : ℤ), 0 ≤ s := by
    intro s hs
    obtain ⟨row, -, rfl⟩ := List.mem_map.mp hs
    exact Int.natCast_nonneg _
  rw [balanceBatch, attentionMask_eq hmask, ok_bind] at h
  obtain ⟨parts, hparts, happly⟩ := bind_eq_ok.mp h
  constructor
  · intro hgrouper uids huids
    rw [huids] at hparts
    exact ⟨parts, applyPartitions_grouped hdata hlength hseqlens happly hgrouper
      (hdata.non_tensor _ (mem_of_lookup huids)) hparts⟩
  · rintro hgrouper rfl
    exact applyPartitions_minibatches hdata hlength hseqlens happly hgrouper hparts

end Modes

/-! ### Four rows for two ranks -/

def sampleTrainer (use_prefix_grouper : Bool) : RayPPOTrainer ℕ where
  dp_size := 2
  use_prefix_grouper := use_prefix_grouper
  ppo_mini_batch_size := 2
  attended := id

/-- Two rows of each of two prompts. -/
def sampleRows : DataProto ℕ ℕ where
  batch := some ⟨4, [("attention_mask", [9, 1, 5, 6])]⟩
  non_tensor_batch := [("uid", [0, 0, 1, 1])]
  meta_info := 0

theorem sampleRows_consistent : sampleRows.Consistent where
  tensors batch h c hc := by
    cases h
    rw [List.mem_singleton.mp hc]
    rfl
  non_tensor c hc := by
    rw [List.mem_singleton.mp hc]
    rfl

theorem sampleRows_mask :
    sampleRows.tensors.lookup (PyStr.ofString "attention_mask") = some [9, 1, 5, 6] := by
  decide

/-- Two ranks share the rows, and three cannot. -/
theorem balanceBatch_sample :
    (∃ out stats parts, balanceBatch (sampleTrainer false) sampleRows false = .ok (out, stats) ∧
      Dispatched (sampleTrainer false) ([9, 1, 5, 6].map fun row : ℕ => (row : ℤ)) sampleRows out
        stats parts) ∧
    ¬∃ out stats parts, balanceBatch { sampleTrainer false with dp_size := 3 } sampleRows false =
        .ok (out, stats) ∧
      Dispatched { sampleTrainer false with dp_size := 3 }
        ([9, 1, 5, 6].map fun row : ℕ => (row : ℤ)) sampleRows out stats parts := by
  refine ⟨(balanceBatch_iff (sampleTrainer false) sampleRows_consistent sampleRows_mask rfl).mpr
    (by decide), fun h => ?_⟩
  have hshared := (balanceBatch_iff { sampleTrainer false with dp_size := 3 } sampleRows_consistent
    sampleRows_mask rfl).mp h
  exact absurd hshared (by decide)

/-- With as many rows for each prompt, each rank gets the rows of one prompt. -/
theorem balanceBatch_modes_sample : ∃ out stats,
    balanceBatch (sampleTrainer true) sampleRows false = .ok (out, stats) ∧
    ∃ parts : List (List ℕ), RowsOf sampleRows parts.flatten out ∧ Together [0, 0, 1, 1] parts ∧
      Chunks.chunks 2 parts.flatten = parts := by
  have hok : (balanceBatch (sampleTrainer true) sampleRows false).isOk = true := by decide +kernel
  rcases hrun : balanceBatch (sampleTrainer true) sampleRows false with e | ⟨out, stats⟩
  · rw [hrun] at hok
    cases hok
  · obtain ⟨parts, hrows, -, -, htogether, hchunks, hrepeated⟩ :=
      (balanceBatch_modes sampleRows_consistent sampleRows_mask hrun).1 rfl [0, 0, 1, 1] (by decide)
    exact ⟨out, stats, rfl, parts, hrows, htogether,
      hchunks.mpr (hrepeated [0, 1] 1 (by decide) (by decide))⟩

/-- With three rows of one prompt and one of another, the first rank gets two rows of the first
prompt, and the second rank gets the third one. -/
example : (balanceBatch (sampleTrainer true)
    { sampleRows with non_tensor_batch := [("uid", [0, 0, 0, 1])] } false).map
      (fun r => r.1.non_tensor_batch) = .ok [("uid", [0, 0, 0, 1])] := by decide +kernel

end SeqlenBalancing

end ToolAgent
