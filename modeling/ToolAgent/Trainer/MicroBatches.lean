import ToolAgent.Library.Selection
import ToolAgent.Trainer.BalanceBatch

/-!
# Micro-batches

`prepare_micro_batches` and `postprocess_batch_func` of `verl.workers.engine.utils`, with
`rearrange_micro_batches` and `restore_dynamic_batch` of `verl.utils.seqlen_balancing`. A rank runs
its rows in micro-batches, either in the order they have, or rearranged such that each one is about
as much work, in which case what the model gives for the rows is put back in order.

## Main definitions

* `prepareMicroBatches`, `rearrangeMicroBatches` — from rows to micro-batches
* `postprocessBatch`, `restoreDynamicBatch` — from outputs to rows

## Main results

* `postprocess_prepare` — a row-by-row model gives the same output in both ways
* `rearranged_tokens_le` — how far a micro-batch can exceed the limit on its tokens
-/

namespace ToolAgent

namespace SeqlenBalancing

open Python Reordering

variable {ρ σ : Type}

/-! ### Preparation -/

/-- What the functions are called with, and the entries of the data that are not rows. -/
structure MicroBatchConfig where
  use_dynamic_bsz : Bool := true
  max_token_len_per_gpu : Option ℕ
  sp_size : ℕ := 1
  micro_batch_size_per_gpu : ℕ := 1
  force_group_size : ℕ := 1
  /-- The maximum over the ranks, where they have to agree. -/
  all_reduce : Option (ℕ → ℕ) := none
  num_batches_divided_by : Option ℕ := none
  min_num_micro_batch : Option ℕ := none
  use_dynamic_bsz_balance : Bool := true
  /-- The width of `attention_mask`, if `input_ids` is not nested. -/
  width : Option ℕ := none

/-- `ceildiv` -/
def ceildiv (a b : ℕ) : Except PyErr ℕ :=
  if b = 0 then throw .zeroDivisionError "integer division or modulo by zero"
  else .ok ((a + b - 1) / b)

/-- `roundup_divisible` -/
def roundupDivisible (a b : ℕ) : Except PyErr ℕ :=
  if b = 0 then throw .zeroDivisionError "integer division or modulo by zero"
  else .ok ((a + b - 1) / b * b)

def maxSeqLen (config : MicroBatchConfig) (seq_len_effective : List ℕ) : Except PyErr ℕ :=
  match config.width, seq_len_effective.max? with
  | some width, _ => .ok width
  | none, some m => .ok m
  | none, none => throw .valueError "max() iterable argument is empty"

def numMicroBatches (config : MicroBatchConfig) (max_token_len num_groups total_seqlen : ℕ) :
    Except PyErr ℕ := do
  let needed ← ceildiv total_seqlen max_token_len
  let num := min num_groups needed
  let num := match config.min_num_micro_batch with | some least => max least num | none => num
  let num := match config.all_reduce with | some all_reduce => all_reduce num | none => num
  match config.num_batches_divided_by with
  | some divisor => roundupDivisible num divisor
  | none => .ok num

/-- The rows of some groups. -/
def expandGroups (force_group_size : ℕ) (groups : List ℕ) : List ℕ :=
  groups.flatMap fun g => (List.range force_group_size).map (g * force_group_size + ·)

/-- The workload of each group, or of each row. -/
def groupWorkloads (config : MicroBatchConfig) (seq_len_effective : List ℕ) : List ℤ :=
  let workloads := seq_len_effective.map fun s : ℕ => calculateWorkload s
  if 1 < config.force_group_size then
    (Chunks.chunks config.force_group_size workloads).map List.sum
  else workloads

/-- `micro_bsz_idx.sort(key=…, reverse=True)` -/
def sortByWorkload (config : MicroBatchConfig) (workloads : List ℤ) (idx : List (List ℕ)) :
    List (List ℕ) :=
  let key (part : List ℕ) : ℤ ×ₗ ℕ :=
    let workload := if 1 < config.force_group_size then
        ((Chunks.chunks config.force_group_size part).map fun c =>
          lengthOf workloads (c.headD 0 / config.force_group_size)).sum
      else (part.map (lengthOf workloads)).sum
    toLex (workload, part.headD 0)
  idx.insertionSort fun a b => key b ≤ key a

/-- `micro_bsz_idx[::2][::-1] + micro_bsz_idx[1::2]` -/
def smallAtEnds (idx : List (List ℕ)) : List (List ℕ) :=
  (everyOther idx).reverse ++ everyOther idx.tail

/-- The second result of `rearrange_micro_batches`, from which the first is selected. -/
def rearrangedIdx (config : MicroBatchConfig) (max_token_len : ℕ) (seq_len_effective : List ℕ) :
    Except PyErr (List (List ℕ)) := do
  let max_seq_len ← maxSeqLen config seq_len_effective
  let batch_size := seq_len_effective.length
  if max_token_len < max_seq_len then
    .error ⟨.assertionError, "max_token_len must be greater than the sequence length. Got max_token_len=" ++
      text max_token_len ++ " and max_seq_len=" ++ text max_seq_len⟩
  else if config.force_group_size = 0 then throw .zeroDivisionError "integer modulo by zero"
  else if batch_size % config.force_group_size ≠ 0 then
    .error ⟨.assertionError, "Batch size " ++ text batch_size ++ " must be divisible by force_group_size " ++
      text config.force_group_size⟩
  else
    let num_groups := batch_size / config.force_group_size
    let num_micro_batches ← numMicroBatches config max_token_len num_groups seq_len_effective.sum
    if num_groups < num_micro_batches then throw .assertionError ""
    else
      let workloads := groupWorkloads config seq_len_effective
      let parts ← getSeqlenBalancedPartitions workloads num_micro_batches false
      let micro_bsz_idx :=
        if 1 < config.force_group_size then
          parts.map (expandGroups config.force_group_size) else parts
      .ok (if config.use_dynamic_bsz_balance then smallAtEnds (sortByWorkload config workloads micro_bsz_idx)
        else micro_bsz_idx)

/-- `rearrange_micro_batches` -/
def rearrangeMicroBatches (config : MicroBatchConfig) (seqlen : ρ → ℕ) (max_token_len : ℕ)
    (rows : List ρ) :
    Except PyErr (List (List ρ) × List (List ℕ)) := do
  let idx ← rearrangedIdx config max_token_len (rows.map seqlen)
  let micro_batches ← idx.mapM fun partition => partition.mapM (item rows)
  .ok (micro_batches, idx)

/-- `chunk_tensordict` -/
def chunkTensordict (rows : List ρ) (chunks : ℕ) : Except PyErr (List (List ρ)) :=
  if chunks = 0 then throw .zeroDivisionError "integer modulo by zero"
  else if rows.length % chunks ≠ 0 then
    .error ⟨.assertionError, "expecting td with length divisible by chunks, but got " ++ text rows.length ++
      " and " ++ text chunks⟩
  else .ok (Chunks.chunks (rows.length / chunks) rows)

def prepareMicroBatches (config : MicroBatchConfig) (seqlen : ρ → ℕ) (rows : List ρ) :
    Except PyErr (List (List ρ) × Option (List (List ℕ))) :=
  if config.use_dynamic_bsz then
    match config.max_token_len_per_gpu with
    | none => throw .assertionError "max_token_len_per_gpu must be set when use_dynamic_bsz is True"
    | some max_token_len_per_gpu => do
      let (micro_batches, idx) ←
        rearrangeMicroBatches config seqlen (max_token_len_per_gpu * config.sp_size) rows
      .ok (micro_batches, some idx)
  else
    let size := config.force_group_size * config.micro_batch_size_per_gpu
    if size = 0 then throw .zeroDivisionError "integer modulo by zero"
    else if rows.length % size ≠ 0 then
      throw .assertionError "data size must be divisible by force_group_size * micro_batch_size_per_gpu"
    else do
      let micro_batches ← chunkTensordict rows (rows.length / size)
      .ok (micro_batches, none)

/-! ### Postprocessing -/

/-- `restore_dynamic_batch` -/
def restoreDynamicBatch (data : List σ) (batch_idx_list : List (List ℕ)) : Except PyErr (List σ) :=
  let indices := batch_idx_list.flatten
  if indices.length ≠ data.length then
    .error ⟨.assertionError, text indices.length ++ " vs. " ++ text data.length⟩
  else (reverseIdx indices).mapM (item data)

/-- `postprocess_batch_func`, for one key of the model output: the tensors of the micro-batches are
joined, and put in order. -/
def postprocessBatch (config : MicroBatchConfig) (output_lst : List (List σ))
    (indices : Option (List (List ℕ))) : Except PyErr (List σ) :=
  let tensors := output_lst.flatten
  match config.use_dynamic_bsz, indices with
  | true, some indices => restoreDynamicBatch tensors indices
  | true, none => throw .typeError "'NoneType' object is not iterable"
  | false, _ => .ok tensors

/-! ### Groups of rows -/

section Groups

open Differencing

variable {config : MicroBatchConfig} {workloads : List ℤ} {f : ℕ}

theorem expandGroups_cons (f g : ℕ) (groups : List ℕ) :
    expandGroups f (g :: groups) = (List.range f).map (g * f + ·) ++ expandGroups f groups :=
  List.flatMap_cons

theorem expandGroups_range (f : ℕ) (G : ℕ) :
    expandGroups f (List.range G) = List.range (G * f) := by
  induction G with
  | zero => rw [Nat.zero_mul]; rfl
  | succ G ih =>
    rw [List.range_succ, expandGroups, List.flatMap_append, ← expandGroups, ih,
      List.flatMap_singleton,
      Nat.succ_mul, List.range_add]

theorem expandGroups_one (groups : List ℕ) : expandGroups 1 groups = groups := by
  induction groups with
  | nil => rfl
  | cons g groups ih => rw [expandGroups_cons, ih]; simp

theorem expandGroups_flatten (f : ℕ) (parts : List (List ℕ)) :
    (parts.map (expandGroups f)).flatten = expandGroups f parts.flatten := by
  rw [← List.flatMap_def, expandGroups, ← List.flatMap_id, List.flatMap_assoc]
  rfl

theorem expandGroups_ne_nil {groups : List ℕ} (hf : 0 < f) (h : groups ≠ []) :
    expandGroups f groups ≠ [] := by
  cases groups with
  | nil => exact absurd rfl h
  | cons g groups =>
    rw [expandGroups_cons]
    intro hnil
    have hlength := congrArg List.length (List.append_eq_nil_iff.mp hnil).1
    rw [List.length_map, List.length_range, List.length_nil] at hlength
    omega

theorem weigh_range (l : List ℤ) : weigh (lengthOf l) (List.range l.length) = l.sum := by
  rw [weigh]
  congr 1
  refine List.ext_getElem (by simp) fun i hi _ => ?_
  rw [List.getElem_map, List.getElem_range, lengthOf, List.getD_eq_getElem?_getD,
    List.getElem?_eq_getElem, Option.getD_some]

/-- The rows of one group. -/
theorem lengthOf_chunks (hf : 0 < f) {g : ℕ} (hg : g < workloads.length / f) :
    lengthOf ((Chunks.chunks f workloads).map List.sum) g =
      weigh (lengthOf workloads) ((List.range f).map (g * f + ·)) := by
  have hle : (g + 1) * f ≤ workloads.length :=
    (Nat.mul_le_mul_right f hg).trans (Nat.div_mul_le_self _ _)
  rw [Nat.succ_mul] at hle
  have hlength : ((workloads.drop (g * f)).take f).length = f := by
    rw [List.length_take, List.length_drop]
    omega
  have hchunk : lengthOf ((Chunks.chunks f workloads).map List.sum) g =
      ((workloads.drop (g * f)).take f).sum := by
    rw [lengthOf, List.getD_eq_getElem?_getD, Chunks.chunks, List.map_map, List.getElem?_map,
      List.getElem?_range hg]
    rfl
  rw [hchunk, ← weigh_range, hlength, weigh, weigh, List.map_map]
  refine congrArg List.sum (List.map_congr_left fun j hj => ?_)
  rw [lengthOf, Function.comp_apply, lengthOf, List.getD_eq_getElem?_getD, List.getD_eq_getElem?_getD,
    List.getElem?_take_of_lt (List.mem_range.mp hj), List.getElem?_drop]

/-- The workload of some groups is that of their rows. -/
theorem weigh_expandGroups (hf : 0 < f) : ∀ {groups : List ℕ},
    (∀ g ∈ groups, g < workloads.length / f) →
    weigh (lengthOf ((Chunks.chunks f workloads).map List.sum)) groups =
      weigh (lengthOf workloads) (expandGroups f groups)
  | [], _ => rfl
  | g :: groups, h => by
    obtain ⟨hg, hgroups⟩ := List.forall_mem_cons.mp h
    rw [expandGroups_cons, weigh_append, ← weigh_expandGroups hf hgroups, ← lengthOf_chunks hf hg]
    rfl

end Groups

/-! ### Rearranged rows -/

section Rearranging

open Differencing

variable {config : MicroBatchConfig} {seqlens : List ℕ} {limit : ℕ} {idx : List (List ℕ)}

/-- The workload of a row. -/
def workloadOf (seqlens : List ℕ) : ℕ → ℤ := lengthOf (seqlens.map fun s : ℕ => calculateWorkload s)

theorem groupWorkloads_eq (hf : 0 < config.force_group_size) (seqlens : List ℕ) :
    groupWorkloads config seqlens =
      (Chunks.chunks config.force_group_size (seqlens.map fun s : ℕ => calculateWorkload s)).map
        List.sum := by
  rw [groupWorkloads]
  split
  · rfl
  · next hone =>
    have heq : config.force_group_size = 1 := by omega
    have hsingle (l : List ℤ) : Chunks.chunks 1 l = l.map fun v => [v] := by
      conv_lhs => rw [← List.flatMap_singleton' l, List.flatMap_def]
      exact Chunks.chunks_flatten one_pos (by simp)
    rw [heq, hsingle, List.map_map]
    exact (List.map_id'' (fun v => List.sum_singleton) _).symm

theorem calculateWorkload_mono {s t : ℕ} (h : s ≤ t) :
    calculateWorkload s ≤ calculateWorkload t := by
  rw [calculateWorkload, calculateWorkload]
  have hcast : (s : ℤ) ≤ t := Int.ofNat_le.mpr h
  have hnonneg : (0 : ℤ) ≤ s := Int.natCast_nonneg s
  gcongr

theorem groupWorkloads_le (hf : 0 < config.force_group_size) (hlimit : ∀ s ∈ seqlens, s ≤ limit) :
    ∀ v ∈ groupWorkloads config seqlens, 0 ≤ v ∧
      v ≤ config.force_group_size * calculateWorkload limit := by
  intro v hv
  rw [groupWorkloads_eq hf] at hv
  obtain ⟨chunk, hchunk, rfl⟩ := List.mem_map.mp hv
  have hmem : ∀ w ∈ chunk, 0 ≤ w ∧ w ≤ calculateWorkload limit := by
    intro w hw
    obtain ⟨c, -, rfl⟩ := List.mem_map.mp hchunk
    obtain ⟨s, hs, rfl⟩ := List.mem_map.mp (List.mem_of_mem_drop (List.mem_of_mem_take hw))
    exact ⟨calculateWorkload_nonneg (Int.natCast_nonneg s), calculateWorkload_mono (hlimit s hs)⟩
  refine ⟨List.sum_nonneg fun w hw => (hmem w hw).1, ?_⟩
  have hsum := List.sum_le_card_nsmul chunk _ fun w hw => (hmem w hw).2
  rwa [Chunks.length_of_mem_chunks hchunk, nsmul_eq_mul] at hsum

theorem sum_workload_le (hlimit : ∀ s ∈ seqlens, s ≤ limit) :
    (seqlens.map fun s : ℕ => calculateWorkload s).sum ≤ seqlens.sum * (24576 + limit) := by
  induction seqlens with
  | nil => simp
  | cons s seqlens ih =>
    obtain ⟨hs, hseqlens⟩ := List.forall_mem_cons.mp hlimit
    have hle : calculateWorkload s ≤ s * (24576 + limit) := by
      rw [calculateWorkload]
      have hcast : (s : ℤ) ≤ limit := Int.ofNat_le.mpr hs
      have hnonneg : (0 : ℤ) ≤ s := Int.natCast_nonneg s
      nlinarith
    have hrest := ih hseqlens
    rw [List.map_cons, List.sum_cons, List.sum_cons, Nat.cast_add, add_mul]
    exact add_le_add hle hrest

/-- No row is longer than `attention_mask` is wide, and the maximum over the ranks is not below the
number of this rank. -/
structure Sound (config : MicroBatchConfig) (seqlens : List ℕ) : Prop where
  width : ∀ width, config.width = some width → ∀ s ∈ seqlens, s ≤ width
  all_reduce : ∀ all_reduce, config.all_reduce = some all_reduce → ∀ n, n ≤ all_reduce n

/-- There are enough micro-batches, if not one for each group. -/
theorem le_numMicroBatches {groups total k : ℕ} (hsound : Sound config seqlens)
    (h : numMicroBatches config limit groups total = .ok k) : groups ≤ k ∨ total ≤ k * limit := by
  obtain ⟨needed, hneeded, h⟩ := bind_eq_ok.mp h
  rw [ceildiv] at hneeded
  split at hneeded
  · cases hneeded
  · next hlimit =>
    have hneeded : (total + limit - 1) / limit = needed := Except.ok.inj hneeded
    have hcovers : total ≤ needed * limit := by
      have hlt := Nat.lt_mul_div_succ (total + limit - 1) (Nat.pos_of_ne_zero hlimit)
      rw [hneeded, Nat.mul_succ, Nat.mul_comm limit] at hlt
      omega
    -- each of the following steps makes the number larger
    have hleast : min groups needed ≤ (match config.min_num_micro_batch with
        | some least => max least (min groups needed) | none => min groups needed) := by
      split
      · exact le_max_right _ _
      · exact le_rfl
    dsimp only at h
    generalize (match config.min_num_micro_batch with
        | some least => max least (min groups needed) | none => min groups needed) =
          least at h hleast
    have hagreed : least ≤
        (match config.all_reduce with | some all_reduce => all_reduce least | none => least) := by
      split
      · next all_reduce hsome => exact hsound.all_reduce all_reduce hsome least
      · exact le_rfl
    generalize (match config.all_reduce with
        | some all_reduce => all_reduce least | none => least) = agreed at h hagreed
    have hk : agreed ≤ k := by
      split at h
      · rw [roundupDivisible] at h
        split at h
        · cases h
        · next divisor _ hdivisor =>
          have hround : (agreed + divisor - 1) / divisor * divisor = k := Except.ok.inj h
          have hlt := Nat.lt_mul_div_succ (agreed + divisor - 1) (Nat.pos_of_ne_zero hdivisor)
          rw [Nat.mul_succ, Nat.mul_comm divisor] at hlt
          omega
      · exact (Except.ok.inj h).le
    rcases le_or_gt groups needed with hle | hgt
    · left
      omega
    · right
      exact hcovers.trans (Nat.mul_le_mul_right limit (by omega))

theorem smallAtEnds_perm (idx : List (List ℕ)) : (smallAtEnds idx).Perm idx :=
  ((List.reverse_perm _).append_right _).trans (everyOther_perm idx)

/-- **What rearranged rows are**: each row is in one micro-batch, and groups stay together. If the
numbers that the function is called with are sound, no micro-batch is more than twice as much work
as a group of rows that are as long as the limit. -/
structure Rearranged (config : MicroBatchConfig) (limit : ℕ) (seqlens : List ℕ)
    (idx : List (List ℕ)) :
    Prop where
  rows : idx.flatten.Perm (List.range seqlens.length)
  groups : ∀ part ∈ idx, part ≠ [] ∧ ∃ groups, part = expandGroups config.force_group_size groups
  light : Sound config seqlens → ∀ part ∈ idx, weigh (workloadOf seqlens) part ≤
    2 * (config.force_group_size * calculateWorkload limit)

theorem seqlens_le_limit (hsound : Sound config seqlens) {m : ℕ}
    (h : maxSeqLen config seqlens = .ok m) (hle : m ≤ limit) : ∀ s ∈ seqlens, s ≤ limit := by
  intro s hs
  rw [maxSeqLen] at h
  split at h
  · next _ width hsome =>
    exact (hsound.width width hsome s hs).trans ((Except.ok.inj h).trans_le hle)
  · next longest _ hmax =>
    exact ((List.max?_eq_some_iff.mp hmax).2 s hs).trans ((Except.ok.inj h).trans_le hle)
  · cases h

/-- The work of a partition, where there are enough of them. -/
theorem weigh_partition_le {parts : List (List ℕ)} {k : ℕ} (hf : 0 < config.force_group_size)
    (hlength : seqlens.length = seqlens.length / config.force_group_size * config.force_group_size)
    (hlimit : ∀ s ∈ seqlens, s ≤ limit)
    (henough : seqlens.length / config.force_group_size ≤ k ∨ seqlens.sum ≤ k * limit)
    (hbalanced : Balanced (groupWorkloads config seqlens) k false parts) :
    ∀ part ∈ parts, weigh (lengthOf (groupWorkloads config seqlens)) part ≤
      2 * (config.force_group_size * calculateWorkload limit) := by
  intro part hpart
  let bound := (config.force_group_size : ℤ) * calculateWorkload limit
  have hgroup := groupWorkloads_le hf hlimit
  have hwithin : Within (lengthOf (groupWorkloads config seqlens)) bound parts :=
    hbalanced.close bound fun v hv => (hgroup v hv).2
  have hcount : (groupWorkloads config seqlens).length =
      seqlens.length / config.force_group_size := by
    rw [groupWorkloads_eq hf, List.length_map, Chunks.length_chunks, List.length_map]
  have hjoin : (groupWorkloads config seqlens).sum =
      (seqlens.map fun s : ℕ => calculateWorkload s).sum := by
    rw [groupWorkloads_eq hf, ← List.sum_flatten, Chunks.flatten_chunks hf
      (n := seqlens.length / config.force_group_size) (by rw [List.length_map]; exact hlength)]
  have htotal : (groupWorkloads config seqlens).sum ≤ k * bound := by
    have hbound : (0 : ℤ) ≤ bound :=
      mul_nonneg (Int.natCast_nonneg _) (calculateWorkload_nonneg (Int.natCast_nonneg limit))
    rcases henough with hgroups | htokens
    · have hsum := List.sum_le_card_nsmul _ _ fun v hv => (hgroup v hv).2
      rw [hcount, nsmul_eq_mul] at hsum
      exact hsum.trans (mul_le_mul_of_nonneg_right (Int.ofNat_le.mpr hgroups) hbound)
    · have hf' : (1 : ℤ) ≤ config.force_group_size := Int.ofNat_le.mpr hf
      have htokens' : (seqlens.sum : ℤ) ≤ k * limit := by exact_mod_cast htokens
      have hwork : (0 : ℤ) ≤ calculateWorkload limit :=
        calculateWorkload_nonneg (Int.natCast_nonneg limit)
      calc (groupWorkloads config seqlens).sum ≤ seqlens.sum * (24576 + limit) :=
        hjoin ▸ sum_workload_le hlimit
        _ ≤ k * limit * (24576 + limit) := mul_le_mul_of_nonneg_right htokens' (by positivity)
        _ = k * (1 * calculateWorkload limit) := by rw [calculateWorkload]; ring
        _ ≤ k * bound := mul_le_mul_of_nonneg_left (mul_le_mul_of_nonneg_right hf' hwork)
          (Int.natCast_nonneg k)
  have hmean := hwithin.nsmul_weigh_le hpart
  rw [hbalanced.length, weigh_perm hbalanced.rows, weigh_range, nsmul_eq_mul, nsmul_eq_mul] at hmean
  have hk : (0 : ℤ) < k := by
    rw [← hbalanced.length]
    exact_mod_cast List.length_pos_of_mem hpart
  refine le_of_mul_le_mul_left (hmean.trans ?_) hk
  rw [two_mul, mul_add]
  exact add_le_add_left htotal _

/-- **Whatever `rearrange_micro_batches` returns** is so rearranged. -/
theorem rearrangedIdx_ok (h : rearrangedIdx config limit seqlens = .ok idx) :
    Rearranged config limit seqlens idx := by
  rw [rearrangedIdx] at h
  obtain ⟨longest, hlongest, h⟩ := bind_eq_ok.mp h
  dsimp only at h
  split at h
  · cases h
  · next hle =>
    split at h
    · cases h
    · next hne =>
      have hf : 0 < config.force_group_size := Nat.pos_of_ne_zero hne
      split at h
      · cases h
      · next hmod =>
        rw [not_not] at hmod
        have hlength := (Nat.div_mul_cancel (Nat.dvd_of_mod_eq_zero hmod)).symm
        obtain ⟨k, hk, h⟩ := bind_eq_ok.mp h
        split at h
        · cases h
        · obtain ⟨parts, hparts, h⟩ := bind_eq_ok.mp h
          have hbalanced := balanced_of_ok (fun v hv => (groupWorkloads_le hf
            (fun s hs => List.single_le_sum (fun _ _ => Nat.zero_le _) s hs) v hv).1) hparts
          have hcount : (groupWorkloads config seqlens).length =
              seqlens.length / config.force_group_size := by
            rw [groupWorkloads_eq hf, List.length_map, Chunks.length_chunks, List.length_map]
          have hexpanded : (if 1 < config.force_group_size then parts.map (expandGroups config.force_group_size)
              else parts) = parts.map (expandGroups config.force_group_size) := by
            split
            · rfl
            · next hone =>
              have heq : config.force_group_size = 1 := by omega
              rw [heq, List.map_congr_left (fun part _ => expandGroups_one part), List.map_id']
          rw [hexpanded] at h
          have hperm : idx.Perm (parts.map (expandGroups config.force_group_size)) := by
            rw [← Except.ok.inj h]
            split
            · exact (smallAtEnds_perm _).trans (List.perm_insertionSort _ _)
            · exact .refl _
          have hmem : ∀ part ∈ idx, ∃ groups ∈ parts, part =
              expandGroups config.force_group_size groups := by
            intro part hpart
            obtain ⟨groups, hgroups, heq⟩ := List.mem_map.mp (hperm.mem_iff.mp hpart)
            exact ⟨groups, hgroups, heq.symm⟩
          have hbelow : ∀ groups ∈ parts, ∀ g ∈ groups,
              g < seqlens.length / config.force_group_size :=
            fun groups hgroups g hg => hcount ▸ List.mem_range.mp
              (hbalanced.rows.mem_iff.mp (List.mem_flatten.mpr ⟨groups, hgroups, hg⟩))
          constructor
          case rows =>
            refine hperm.flatten.trans ?_
            rw [expandGroups_flatten, hlength, ← expandGroups_range, ← hcount]
            exact hbalanced.rows.flatMap_right _
          case groups =>
            intro part hpart
            obtain ⟨groups, hgroups, rfl⟩ := hmem part hpart
            exact ⟨expandGroups_ne_nil hf (hbalanced.increasing groups hgroups).1, groups, rfl⟩
          case light =>
            intro hsound part hpart
            obtain ⟨groups, hgroups, rfl⟩ := hmem part hpart
            have hlimit := seqlens_le_limit hsound hlongest (not_lt.mp hle)
            have hweigh := weigh_partition_le hf hlength hlimit
              (le_numMicroBatches hsound hk) hbalanced
              groups hgroups
            rwa [groupWorkloads_eq hf, weigh_expandGroups hf (by
              intro g hg
              rw [List.length_map]
              exact hbelow groups hgroups g hg)] at hweigh

end Rearranging

/-! ### The two ways agree -/

section Agree

open Differencing

variable {config : MicroBatchConfig} {seqlen : ρ → ℕ} {rows : List ρ} {limit : ℕ}
    {batches : List (List ρ)}
  {idx : List (List ℕ)}

theorem mapM_item_eq {indices : List ℕ} {out : List ρ} :
    indices.mapM (item rows) = .ok out ↔ (indices.map fun i => rows[i]?) = out.map some := by
  rw [mapM_eq_ok_iff]
  simp only [toOption_item]

/-- The rows of the micro-batches. -/
theorem rearranged_flatten : ∀ {idx : List (List ℕ)} {batches : List (List ρ)},
    (idx.mapM fun partition => partition.mapM (item rows)) = .ok batches →
    (idx.flatten.map fun i => rows[i]?) = batches.flatten.map some
  | [], batches, h => by
    cases h
    rfl
  | part :: idx, batches, h => by
    rw [List.mapM_cons] at h
    obtain ⟨batch, hbatch, h⟩ := bind_eq_ok.mp h
    obtain ⟨rest, hrest, h⟩ := bind_eq_ok.mp h
    rw [← Except.ok.inj h, List.flatten_cons, List.flatten_cons, List.map_append, List.map_append,
      rearranged_flatten hrest, mapM_item_eq.mp hbatch]

/-- **What was rearranged is restored**, also after a computation on each row. -/
theorem restoreDynamicBatch_ok (f : ρ → σ) (hrows : idx.flatten.Perm (List.range rows.length))
    (hbatches : (idx.flatten.map fun i => rows[i]?) = batches.flatten.map some) :
    restoreDynamicBatch (batches.map (List.map f)).flatten idx = .ok (rows.map f) := by
  have hdata : (batches.map (List.map f)).flatten = batches.flatten.map f := List.map_flatten.symm
  have hlength : idx.flatten.length = (batches.flatten.map f).length := by
    have hcount := congrArg List.length hbatches
    rwa [List.length_map, List.length_map, ← List.length_map f] at hcount
  rw [hdata, restoreDynamicBatch, if_neg (not_not.mpr hlength), mapM_item_eq]
  have hread : (idx.flatten.map fun i => (rows.map f)[i]?) = (batches.flatten.map f).map some := by
    have hmapped := congrArg (List.map (Option.map f)) hbatches
    rw [List.map_map, List.map_map] at hmapped
    rw [List.map_map]
    exact (List.map_congr_left fun i _ => List.getElem?_map).trans hmapped
  refine reverseIdx_restores hrows hread ?_
  have hcount : rows.length = (rows.map f).length := (List.length_map f).symm
  rw [hcount]
  exact Selection.range_map_getElem? (rows.map f)

theorem chunkTensordict_flatten {chunks : ℕ} (h : chunkTensordict rows chunks = .ok batches) :
    batches.flatten = rows := by
  rw [chunkTensordict] at h
  split at h
  · cases h
  · next hne =>
    split at h
    · cases h
    · next hmod =>
      rw [not_not] at hmod
      rw [← Except.ok.inj h]
      have hdvd := Nat.mul_div_cancel' (Nat.dvd_of_mod_eq_zero hmod)
      rcases Nat.eq_zero_or_pos rows.length with hzero | hpos
      · rw [List.length_eq_zero_iff.mp hzero, Chunks.chunks_nil]
        rfl
      · refine Chunks.flatten_chunks (Nat.pos_of_ne_zero fun hsize => ?_) (n := chunks) hdvd.symm
        rw [hsize, Nat.mul_zero] at hdvd
        omega

/-- **The order of the micro-batches does not show**: for a model that works row by row, dynamic and
static micro-batches give the output of the rows in the order they have. -/
theorem postprocess_prepare (f : ρ → σ) {indices : Option (List (List ℕ))}
    (h : prepareMicroBatches config seqlen rows = .ok (batches, indices)) :
    postprocessBatch config (batches.map (List.map f)) indices = .ok (rows.map f) := by
  rw [prepareMicroBatches] at h
  split at h
  · next hdynamic =>
    split at h
    · cases h
    · next tokens hlimit =>
      obtain ⟨⟨batches', idx⟩, hrearranged, h⟩ := bind_eq_ok.mp h
      cases h
      obtain ⟨idx', hidx, hrest⟩ := bind_eq_ok.mp hrearranged
      obtain ⟨batches'', hbatches, hrest⟩ := bind_eq_ok.mp hrest
      cases hrest
      have hrows := (rearrangedIdx_ok hidx).rows
      rw [List.length_map] at hrows
      simp only [postprocessBatch, hdynamic]
      exact restoreDynamicBatch_ok f hrows (rearranged_flatten hbatches)
  · next hstatic =>
    dsimp only at h
    split at h
    · cases h
    · split at h
      · cases h
      · obtain ⟨batches', hchunks, h⟩ := bind_eq_ok.mp h
        cases h
        rw [Bool.not_eq_true] at hstatic
        simp only [postprocessBatch, hstatic]
        rw [← List.map_flatten, chunkTensordict_flatten hchunks]

/-- The tokens of a micro-batch, from its workload. -/
theorem tokens_le_weigh (seqlen : ρ → ℕ) : ∀ {part : List ℕ} {batch : List ρ},
    (part.map fun i => rows[i]?) = batch.map some →
    24576 * ((batch.map seqlen).sum : ℤ) ≤ weigh (workloadOf (rows.map seqlen)) part
  | [], [], _ => le_rfl
  | i :: part, r :: batch, h => by
    rw [List.map_cons, List.map_cons, List.cons.injEq] at h
    have hrest : 24576 * ((batch.map seqlen).sum : ℤ) ≤ weigh (workloadOf (rows.map seqlen)) part :=
      tokens_le_weigh seqlen h.2
    have hrow : workloadOf (rows.map seqlen) i = calculateWorkload (seqlen r) := by
      rw [workloadOf, lengthOf, List.getD_eq_getElem?_getD, List.getElem?_map,
        List.getElem?_map, h.1]
      rfl
    have hweigh : weigh (workloadOf (rows.map seqlen)) (i :: part) =
        calculateWorkload (seqlen r) + weigh (workloadOf (rows.map seqlen)) part := by
      rw [← hrow]
      rfl
    have hsquare : (0 : ℤ) ≤ (seqlen r : ℤ) ^ 2 := sq_nonneg _
    rw [hweigh, List.map_cons, List.sum_cons, Nat.cast_add, calculateWorkload]
    linarith

/-- **How far a micro-batch can exceed the limit**: micro-batches have about equal workloads, not
tokens, so one can have more tokens than the limit, but not twice as many and the square of the
limit for each group. -/
theorem rearranged_tokens_le (hsound : Sound config (rows.map seqlen))
    (h : rearrangeMicroBatches config seqlen limit rows = .ok (batches, idx)) :
    ∀ batch ∈ batches, 24576 * (batch.map seqlen).sum ≤
      2 * (config.force_group_size * (24576 * limit + limit ^ 2)) := by
  obtain ⟨idx', hidx, hrest⟩ := bind_eq_ok.mp h
  obtain ⟨batches', hbatches, hrest⟩ := bind_eq_ok.mp hrest
  cases hrest
  intro batch hbatch
  obtain ⟨part, hpart, hrows⟩ := exists_mem_of_mapM hbatches batch hbatch
  have htokens := tokens_le_weigh seqlen (mapM_item_eq.mp hrows)
  have hlight := (rearrangedIdx_ok hidx).light hsound part hpart
  rw [calculateWorkload] at hlight
  exact_mod_cast htokens.trans hlight

end Agree

/-! ### Three rows -/

def sampleConfig : MicroBatchConfig where
  max_token_len_per_gpu := some 8

theorem sampleConfig_sound (seqlens : List ℕ) : Sound sampleConfig seqlens where
  width width h := by cases h
  all_reduce all_reduce h := by cases h

theorem postprocess_prepare_sample :
    prepareMicroBatches sampleConfig id [6, 5, 5] = .ok ([[5, 5], [6]], some [[1, 2], [0]]) ∧
    postprocessBatch sampleConfig ([[5, 5], [6]].map (List.map (· + 1))) (some [[1, 2], [0]]) =
      .ok ([6, 5, 5].map (· + 1)) :=
  have h : prepareMicroBatches sampleConfig id [6, 5, 5] =
      .ok ([[5, 5], [6]], some [[1, 2], [0]]) := by
    decide +kernel
  ⟨h, postprocess_prepare (· + 1) h⟩

/-- With a limit of eight tokens, a micro-batch has ten. -/
theorem rearranged_tokens_sample :
    rearrangeMicroBatches sampleConfig id 8 [6, 5, 5] = .ok ([[5, 5], [6]], [[1, 2], [0]]) ∧
    ∀ batch ∈ [[5, 5], [6]], 24576 * (batch.map id).sum ≤ 2 * (1 * (24576 * 8 + 8 ^ 2)) :=
  have h : rearrangeMicroBatches sampleConfig id 8 [6, 5, 5] =
      .ok ([[5, 5], [6]], [[1, 2], [0]]) := by
    decide +kernel
  ⟨h, rearranged_tokens_le (sampleConfig_sound _) h⟩

end SeqlenBalancing

end ToolAgent
