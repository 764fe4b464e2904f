import Mathlib.Data.Finset.Card
import Mathlib.Data.Rat.Floor
import ToolAgent.Sft.Collect

/-!
# The split of the tasks

`build_split` of `collect_sft_data`, with the stride computed exactly. Evenly spaced ids are picked,
and where two picks coincide the holdout is filled up from the end of the list.

Ids may repeat. The fill-up loop has no bound of its own: it reaches the size only if there are that
many different ids, and leaves the list with an `IndexError` if there are not.

## Main definitions

* `buildSplitFrom` — the split, from the picks
* `buildSplitExact` — with an exact stride
* `IsSplit` — what a split owes

## Main results

* `fillHoldout_ok_iff` — when the loop ends in the list
* `buildSplitExact_isSplit_iff` — when there is a split
-/

namespace ToolAgent

namespace Collect

open Python

/-- `build_split`, where `pick size i` is `task_ids[int(i * stride)]`. -/
def buildSplitFrom (pick : ℕ → ℕ → Except PyErr ℤ) (taskIds : List ℤ) (holdoutSize : ℤ) :
    Except PyErr (List ℤ × List ℤ) :=
  if holdoutSize ≤ 0 ∨ (taskIds.length : ℤ) ≤ holdoutSize then .ok (taskIds, [])
  else do
    let size := holdoutSize.toNat
    let picked ← (List.range size).mapM (pick size)
    let filled ← fillHoldout size (sorted picked.dedup) taskIds.reverse
    let holdout := sorted (filled.take size)
    .ok (taskIds.filter fun taskId => !holdout.contains taskId, holdout)

/-- The code divides in doubles. -/
theorem buildSplit_eq_from (taskIds : List ℤ) (holdoutSize : ℤ) :
    buildSplit taskIds holdoutSize =
      buildSplitFrom (fun size => strideItem taskIds (.ofRat ((taskIds.length : ℚ) / size))) taskIds
        holdoutSize := rfl

/-- `task_ids[int(i * stride)]`, for `stride = len(task_ids) / holdout_size` without rounding. -/
def exactItem (taskIds : List ℤ) (size i : ℕ) : Except PyErr ℤ :=
  item taskIds ⌊(i : ℚ) * ((taskIds.length : ℚ) / size)⌋.toNat

/-- `build_split`, with an exact stride. -/
def buildSplitExact (taskIds : List ℤ) (holdoutSize : ℤ) : Except PyErr (List ℤ × List ℤ) :=
  buildSplitFrom (exactItem taskIds) taskIds holdoutSize

/-! ### The fill-up loop -/

section Fill

variable {size : ℕ} {taskIds : List ℤ}

theorem nodup_fill {holdout : List ℤ} (h : holdout.Nodup) (cand : ℤ) :
    (if holdout.contains cand then holdout else holdout ++ [cand]).Nodup := by
  by_cases hmem : cand ∈ holdout
  · rw [if_pos (List.contains_iff_mem.mpr hmem)]
    exact h
  · rw [if_neg fun hcand => hmem (List.contains_iff_mem.mp hcand)]
    refine List.nodup_append.mpr ⟨h, List.nodup_singleton _, fun a ha b hb hab => hmem ?_⟩
    rw [← List.mem_singleton.mp hb, ← hab]
    exact ha

/-- A round leaves the ids that the loop can still reach. -/
theorem toFinset_fill (holdout rest : List ℤ) (cand : ℤ) :
    ((if holdout.contains cand then holdout else holdout ++ [cand]) ++ rest).toFinset =
      (holdout ++ cand :: rest).toFinset := by
  ext taskId
  split
  · next hcand =>
    have hmem : cand ∈ holdout := List.contains_iff_mem.mp hcand
    simp only [List.mem_toFinset, List.mem_append, List.mem_cons]
    constructor
    · rintro (h | h)
      · exact .inl h
      · exact .inr (.inr h)
    · rintro (h | rfl | h)
      · exact .inl h
      · exact .inl hmem
      · exact .inr h
  · simp only [List.mem_toFinset, List.mem_append, List.mem_cons, List.not_mem_nil, false_or,
      or_assoc]

/-- **The loop ends in the list** exactly when there are enough different ids. -/
theorem fillHoldout_ok_iff {cands : List ℤ} : ∀ {holdout : List ℤ}, holdout.Nodup →
    ((∃ filled, fillHoldout size holdout cands = .ok filled) ↔
      size ≤ (holdout ++ cands).toFinset.card) := by
  induction cands with
  | nil =>
    intro holdout h
    rw [fillHoldout, List.append_nil, List.toFinset_card_of_nodup h]
    by_cases hlt : holdout.length < size
    · rw [if_pos hlt]
      refine iff_of_false ?_ (by omega)
      rintro ⟨filled, hfilled⟩
      cases hfilled
    · rw [if_neg hlt]
      exact iff_of_true ⟨holdout, rfl⟩ (by omega)
  | cons cand cands ih =>
    intro holdout h
    rw [fillHoldout]
    by_cases hlt : holdout.length < size
    · rw [if_pos hlt, ih (nodup_fill h cand), toFinset_fill]
    · rw [if_neg hlt]
      have hcard : holdout.length ≤ (holdout ++ cand :: cands).toFinset.card := by
        rw [← List.toFinset_card_of_nodup h, List.toFinset_append]
        exact Finset.card_le_card Finset.subset_union_left
      exact iff_of_true ⟨holdout, rfl⟩ (by omega)

theorem fillHoldout_spec {cands : List ℤ} : ∀ {holdout filled : List ℤ},
    fillHoldout size holdout cands = .ok filled → holdout.Nodup → holdout.length ≤ size →
      filled.Nodup ∧ filled.length = size := by
  induction cands with
  | nil =>
    intro holdout filled h hnodup hle
    rw [fillHoldout] at h
    split at h
    · cases h
    · obtain rfl := Except.ok.inj h
      exact ⟨hnodup, by omega⟩
  | cons cand cands ih =>
    intro holdout filled h hnodup hle
    rw [fillHoldout] at h
    split at h
    · refine ih h (nodup_fill hnodup cand) ?_
      split
      · exact hle
      · rw [List.length_append, List.length_singleton]
        omega
    · obtain rfl := Except.ok.inj h
      exact ⟨hnodup, by omega⟩

theorem nodup_sorted {xs : List ℤ} (h : xs.Nodup) : (sorted xs).Nodup :=
  (List.perm_insertionSort _ xs).nodup_iff.mpr h

theorem sorted_strict {xs : List ℤ} (h : xs.Nodup) : (sorted xs).Pairwise (· < ·) := by
  have hle : (sorted xs).Pairwise (· ≤ ·) := List.pairwise_insertionSort _ xs
  exact (hle.and (nodup_sorted h)).imp fun hab => lt_of_le_of_ne hab.1 hab.2

theorem length_sorted (xs : List ℤ) : (sorted xs).length = xs.length :=
  (List.perm_insertionSort _ xs).length_eq

end Fill

/-! ### The split -/

/-- What a split owes: no id is in both parts and each id is in one of them, the seen ones in their
order, the holdout sorted and without repeats, and of the asked size if there are more ids than
that. -/
structure IsSplit (taskIds : List ℤ) (holdoutSize : ℤ) (seen holdout : List ℤ) : Prop where
  disjoint : ∀ taskId ∈ seen, taskId ∉ holdout
  covers : ∀ taskId ∈ taskIds, taskId ∈ seen ∨ taskId ∈ holdout
  order : seen = taskIds.filter fun taskId => taskId ∉ holdout
  from_list : ∀ taskId ∈ holdout, taskId ∈ taskIds
  sorted : holdout.Pairwise (· < ·)
  size : 0 < holdoutSize → holdoutSize < taskIds.toFinset.card → (holdout.length : ℤ) = holdoutSize

section Split

variable {pick : ℕ → ℕ → Except PyErr ℤ} {taskIds : List ℤ} {holdoutSize : ℤ}

/-- The seen ids are those that are not held out. -/
theorem IsSplit.of_holdout {holdout : List ℤ} (hmem : ∀ taskId ∈ holdout, taskId ∈ taskIds)
    (hsorted : holdout.Pairwise (· < ·))
    (hsize : 0 < holdoutSize → holdoutSize < taskIds.toFinset.card →
      (holdout.length : ℤ) = holdoutSize) :
    IsSplit taskIds holdoutSize (taskIds.filter fun taskId => taskId ∉ holdout) holdout where
  disjoint taskId htask := of_decide_eq_true (List.mem_filter.mp htask).2
  covers taskId htask := by
    by_cases hheld : taskId ∈ holdout
    · exact .inr hheld
    · exact .inl (List.mem_filter.mpr ⟨htask, decide_eq_true hheld⟩)
  order := rfl
  from_list := hmem
  sorted := hsorted
  size := hsize

/-- Enough ids, or nothing to hold out. -/
def Splittable (taskIds : List ℤ) (holdoutSize : ℤ) : Prop :=
  holdoutSize ≤ 0 ∨ (taskIds.length : ℤ) ≤ holdoutSize ∨ holdoutSize ≤ taskIds.toFinset.card

/-- Nothing is held out. -/
theorem isSplit_nil (h : holdoutSize ≤ 0 ∨ (taskIds.length : ℤ) ≤ holdoutSize) :
    IsSplit taskIds holdoutSize taskIds [] := by
  have hall : taskIds.filter (fun taskId => taskId ∉ ([] : List ℤ)) = taskIds :=
    List.filter_eq_self.mpr fun taskId _ => by simp
  have hsplit : IsSplit taskIds holdoutSize
      (taskIds.filter fun taskId => taskId ∉ ([] : List ℤ)) [] := by
    refine .of_holdout (fun taskId htask => ?_) List.Pairwise.nil fun hpos hlt => ?_
    · cases htask
    · have hcard : taskIds.toFinset.card ≤ taskIds.length := List.toFinset_card_le taskIds
      omega
  rwa [hall] at hsplit

/-- **When there is a split**, for picks from the list. -/
theorem buildSplitFrom_isSplit_iff
    (hpick : ∀ size i : ℕ, i < size → size < taskIds.length → ∃ taskId, pick size i = .ok taskId)
    (hmem : ∀ (size i : ℕ) (taskId : ℤ), pick size i = .ok taskId → taskId ∈ taskIds) :
    (∃ seen holdout, buildSplitFrom pick taskIds holdoutSize = .ok (seen, holdout) ∧
      IsSplit taskIds holdoutSize seen holdout) ↔ Splittable taskIds holdoutSize := by
  by_cases hnone : holdoutSize ≤ 0 ∨ (taskIds.length : ℤ) ≤ holdoutSize
  · rw [buildSplitFrom, if_pos hnone]
    exact iff_of_true ⟨taskIds, [], rfl, isSplit_nil hnone⟩ (hnone.elim .inl fun h => .inr (.inl h))
  obtain ⟨hpos, hlt⟩ := not_or.mp hnone
  obtain ⟨size, rfl⟩ : ∃ size : ℕ, holdoutSize = size := ⟨holdoutSize.toNat, by omega⟩
  have hsplittable : Splittable taskIds size ↔ size ≤ taskIds.toFinset.card := by
    rw [Splittable]
    omega
  have hpicks : ∃ picked, (List.range size).mapM (pick size) = .ok picked :=
    exists_mapM fun i hi => hpick size i (List.mem_range.mp hi) (by omega)
  obtain ⟨picked, hpicked⟩ := hpicks
  have hfrom : ∀ taskId ∈ sorted picked.dedup, taskId ∈ taskIds := fun taskId htask => by
    obtain ⟨i, -, hi⟩ := exists_mem_of_mapM hpicked taskId
      (List.mem_dedup.mp (mem_sorted.mp htask))
    exact hmem size i taskId hi
  have hnodup : (sorted picked.dedup).Nodup := nodup_sorted (List.nodup_dedup picked)
  have hlength : (sorted picked.dedup).length ≤ size := by
    rw [length_sorted]
    calc picked.dedup.length ≤ picked.length := (List.dedup_sublist picked).length_le
      _ = size := by rw [length_of_mapM hpicked, List.length_range]
  -- the loop can reach the ids of the list and no others
  have hreach : (sorted picked.dedup ++ taskIds.reverse).toFinset = taskIds.toFinset := by
    ext taskId
    simp only [List.mem_toFinset, List.mem_append, List.mem_reverse]
    exact ⟨fun h => h.elim (hfrom taskId) id, .inr⟩
  have hrun : buildSplitFrom pick taskIds size =
      (fillHoldout size (sorted picked.dedup) taskIds.reverse >>= fun filled =>
        .ok (taskIds.filter fun taskId => !(sorted (filled.take size)).contains taskId,
          sorted (filled.take size))) := by
    rw [buildSplitFrom, if_neg hnone]
    simp only [Int.toNat_natCast, hpicked, ok_bind]
  rw [hsplittable, ← hreach, ← fillHoldout_ok_iff hnodup, hrun]
  constructor
  · rintro ⟨seen, holdout, h, -⟩
    obtain ⟨filled, hfilled, -⟩ := bind_eq_ok.mp h
    exact ⟨filled, hfilled⟩
  · rintro ⟨filled, hfilled⟩
    obtain ⟨hfilledNodup, hfilledLength⟩ := fillHoldout_spec hfilled hnodup hlength
    have htake : filled.take size = filled := List.take_of_length_le hfilledLength.le
    have hfilledMem : ∀ taskId ∈ sorted filled, taskId ∈ taskIds := fun taskId htask =>
      mem_fillHoldout hfilled hfrom (fun taskId hcand => List.mem_reverse.mp hcand) taskId
        (mem_sorted.mp htask)
    refine ⟨taskIds.filter fun taskId => taskId ∉ sorted filled, sorted filled, ?_,
      .of_holdout hfilledMem (sorted_strict hfilledNodup) fun _ _ => ?_⟩
    · rw [hfilled, ok_bind, htake]
      simp
    · rw [length_sorted, hfilledLength]

/-- An exact stride picks from the list. -/
theorem exactItem_index {size i : ℕ} (hi : i < size) (hsize : size < taskIds.length) :
    ⌊(i : ℚ) * ((taskIds.length : ℚ) / size)⌋.toNat < taskIds.length := by
  have hpos : (0 : ℚ) < size := Nat.cast_pos.mpr (Nat.zero_lt_of_lt hi)
  have hlength : (0 : ℚ) < taskIds.length := Nat.cast_pos.mpr (Nat.zero_lt_of_lt hsize)
  have hlt : (i : ℚ) * ((taskIds.length : ℚ) / size) < taskIds.length := by
    calc (i : ℚ) * ((taskIds.length : ℚ) / size)
        < size * ((taskIds.length : ℚ) / size) :=
          mul_lt_mul_of_pos_right (Nat.cast_lt.mpr hi) (div_pos hlength hpos)
      _ = taskIds.length := mul_div_cancel₀ _ hpos.ne'
  have hfloor : ⌊(i : ℚ) * ((taskIds.length : ℚ) / size)⌋ < (taskIds.length : ℤ) := by
    rw [Int.floor_lt]
    exact_mod_cast hlt
  omega

/-- **When there is a split.** -/
theorem buildSplitExact_isSplit_iff (taskIds : List ℤ) (holdoutSize : ℤ) :
    (∃ seen holdout, buildSplitExact taskIds holdoutSize = .ok (seen, holdout) ∧
      IsSplit taskIds holdoutSize seen holdout) ↔
    holdoutSize ≤ 0 ∨ (taskIds.length : ℤ) ≤ holdoutSize ∨ holdoutSize ≤ taskIds.toFinset.card := by
  refine buildSplitFrom_isSplit_iff (fun size i hi hsize => ?_) fun size i taskId h => ?_
  · exact ⟨_, item_eq_ok.mpr (List.getElem?_eq_getElem (exactItem_index hi hsize))⟩
  · exact List.mem_of_getElem? (item_eq_ok.mp h)

/-- Two different ids cannot make a holdout of three: neither with an exact stride nor in
doubles. -/
theorem buildSplit_runs_out :
    buildSplitExact [1, 1, 1, 2] 3 = .error ⟨.indexError, "list index out of range"⟩ ∧
      buildSplit [1, 1, 1, 2] 3 = .error ⟨.indexError, "list index out of range"⟩ := by
  constructor
  · decide +kernel
  · decide +kernel

end Split

end Collect

end ToolAgent
