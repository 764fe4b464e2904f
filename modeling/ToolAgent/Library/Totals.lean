import ToolAgent.Library.Grouping
import Mathlib.Algebra.BigOperators.Group.List.Lemmas
import Mathlib.Algebra.BigOperators.Ring.List
import Mathlib.Algebra.Order.BigOperators.Group.List
import Mathlib.Algebra.Order.Field.Rat
import Mathlib.Data.List.Sort
import Mathlib.Data.Rat.Cast.Order

/-!
# Totals over groups

Rows are collected in a dictionary of groups, and the total over all rows is the total of the totals
of the groups. The groups of a selection of the rows by key are those of the selected keys, and a
permutation of the rows permutes the keys and the rows of each group.

## Main definitions

* `upsert`, `groupBy` — dictionaries of rows, in the order of the first insertion
* `mean` — the mean, or `0` of nothing

## Main results

* `groupBy_eq` — what the dictionary holds
* `sum_eq_sum_groups` — the total over the groups
* `map_group_filter` — selections
* `insertionSort_perm` — a permutation is sorted alike
-/

namespace ToolAgent

namespace Grouping

variable {ρ α β : Type} [DecidableEq α]

/-! ### Dictionaries -/

/-- `d[k] = f(d.get(k))`: an existing key keeps its place. -/
def upsert (d : List (α × β)) (k : α) (f : Option β → β) : List (α × β) :=
  match d with
  | [] => [(k, f none)]
  | (k', v) :: d => if k' = k then (k, f (some v)) :: d else (k', v) :: upsert d k f

/-- `d[key(row)].append(row)`, row by row. -/
def groupBy (key : ρ → α) (rows : List ρ) : List (α × List ρ) :=
  rows.foldl (fun d r => upsert d (key r) fun old => old.getD [] ++ [r]) []

theorem upsert_of_mem {keys : List α} {k : α} (g : α → β) (f : Option β → β) (hkeys : keys.Nodup)
    (hk : k ∈ keys) :
    upsert (keys.map fun u => (u, g u)) k f =
      keys.map fun u => (u, if u = k then f (some (g u)) else g u) := by
  induction keys with
  | nil => cases hk
  | cons v keys ih =>
    obtain ⟨hv, hkeys⟩ := List.nodup_cons.mp hkeys
    rw [List.map_cons, upsert, List.map_cons]
    by_cases h : v = k
    · subst h
      have hrest : keys.map (fun u => (u, if u = v then f (some (g u)) else g u)) =
          keys.map fun u => (u, g u) :=
        List.map_congr_left fun u hu => by rw [if_neg fun (h : u = v) => hv (h ▸ hu)]
      rw [if_pos rfl, if_pos rfl, hrest]
    · have hmem : k ∈ keys := (List.mem_cons.mp hk).resolve_left fun h' => h h'.symm
      rw [if_neg h, if_neg h, ih hkeys hmem]

theorem upsert_of_not_mem {keys : List α} {k : α} (g : α → β) (f : Option β → β) (hk : k ∉ keys) :
    upsert (keys.map fun u => (u, g u)) k f = keys.map (fun u => (u, g u)) ++ [(k, f none)] := by
  induction keys with
  | nil => rfl
  | cons v keys ih =>
    obtain ⟨hv, hk⟩ := not_or.mp (List.mem_cons.not.mp hk)
    rw [List.map_cons, upsert, if_neg fun h => hv h.symm, ih hk, List.cons_append]

/-- A value is put under one key, so the other values are those there were. -/
theorem mem_upsert_const {d : List (α × β)} {k : α} {v : β} {entry : α × β}
    (h : entry ∈ upsert d k fun _ => v) : entry.2 = v ∨ entry ∈ d := by
  induction d with
  | nil =>
    rw [upsert, List.mem_singleton] at h
    exact .inl (congrArg Prod.snd h)
  | cons first d ih =>
    rw [upsert] at h
    split at h
    · rcases List.mem_cons.mp h with rfl | h
      · exact .inl rfl
      · exact .inr (List.mem_cons_of_mem _ h)
    · rcases List.mem_cons.mp h with rfl | h
      · exact .inr List.mem_cons_self
      · exact (ih h).imp_right (List.mem_cons_of_mem _)

theorem fromKeys_concat (us : List α) (u : α) :
    fromKeys (us ++ [u]) = if u ∈ us then fromKeys us else fromKeys us ++ [u] := by
  induction us with
  | nil => rfl
  | cons v us ih =>
    rw [List.cons_append, fromKeys, ih, fromKeys]
    by_cases hmem : u ∈ us
    · rw [if_pos hmem, if_pos (List.mem_cons_of_mem v hmem)]
    · rw [if_neg hmem, List.filter_append]
      by_cases hv : u = v
      · rw [if_pos (by rw [hv]; exact List.mem_cons_self), hv]
        simp
      · rw [if_neg (List.mem_cons.not.mpr (not_or.mpr ⟨hv, hmem⟩))]
        simp [hv]

theorem group_eq_nil {key : ρ → α} {u : α} {rows : List ρ} (h : u ∉ rows.map key) :
    group key u rows = [] := by
  refine List.filter_eq_nil_iff.mpr fun r hr hkey => h ?_
  exact List.mem_map.mpr ⟨r, hr, of_decide_eq_true hkey⟩

/-- **What the dictionary holds**: the group of every key that occurs. -/
theorem groupBy_eq (key : ρ → α) (rows : List ρ) :
    groupBy key rows = (fromKeys (rows.map key)).map fun u => (u, group key u rows) := by
  induction rows using List.reverseRecOn with
  | nil => rfl
  | append_singleton rows r ih =>
    have hstep : groupBy key (rows ++ [r]) =
        upsert (groupBy key rows) (key r) fun old => old.getD [] ++ [r] := by
      rw [groupBy, List.foldl_append]
      rfl
    have hgroup : ∀ u, group key u (rows ++ [r]) =
        if u = key r then group key u rows ++ [r] else group key u rows := by
      intro u
      rw [group_append]
      by_cases hu : u = key r
      · rw [if_pos hu, hu, group_cons_self]
        rfl
      · rw [if_neg hu, group_cons_of_ne fun h => hu h.symm]
        exact List.append_nil _
    rw [hstep, ih, List.map_append, List.map_singleton, fromKeys_concat]
    simp only [hgroup]
    by_cases hmem : key r ∈ rows.map key
    · rw [if_pos hmem, upsert_of_mem _ _ (nodup_fromKeys _) (mem_fromKeys.mpr hmem)]
      rfl
    · have hnew : key r ∉ fromKeys (rows.map key) := fun h => hmem (mem_fromKeys.mp h)
      rw [if_neg hmem, upsert_of_not_mem _ _ hnew, List.map_append, List.map_singleton, if_pos rfl,
        group_eq_nil hmem]
      congr 1
      refine List.map_congr_left fun u hu => ?_
      rw [if_neg fun (h : u = key r) => hnew (h ▸ hu)]

/-! ### Selections -/

theorem fromKeys_filter (p : α → Bool) (us : List α) :
    fromKeys (us.filter p) = (fromKeys us).filter p := by
  induction us with
  | nil => rfl
  | cons u us ih =>
    rw [fromKeys]
    by_cases hu : p u = true
    · rw [List.filter_cons_of_pos hu, fromKeys, ih, List.filter_cons_of_pos hu, List.filter_filter,
        List.filter_filter]
      simp only [Bool.and_comm]
    · rw [List.filter_cons_of_neg hu, List.filter_cons_of_neg hu, ih, List.filter_filter]
      refine List.filter_congr fun v _ => ?_
      by_cases hv : v = u
      · rw [hv, Bool.eq_false_iff.mpr hu, Bool.false_and]
      · rw [decide_eq_true hv, Bool.and_true]

theorem group_filter {key : ρ → α} {p : α → Bool} {u : α} (hu : p u = true) (rows : List ρ) :
    group key u (rows.filter fun r => p (key r)) = group key u rows := by
  rw [group, group, List.filter_filter]
  refine List.filter_congr fun r _ => ?_
  by_cases hr : key r = u
  · rw [hr, hu, Bool.and_true]
  · rw [decide_eq_false hr, Bool.false_and]

omit [DecidableEq α] in
theorem map_key_filter (key : ρ → α) (p : α → Bool) (rows : List ρ) :
    (rows.filter fun r => p (key r)).map key = (rows.map key).filter p := by
  rw [List.filter_map]
  rfl

/-- What is made of the groups of a selection. -/
theorem map_group_filter {γ : Type} (key : ρ → α) (p : α → Bool) (f : List ρ → γ) (rows : List ρ) :
    (fromKeys ((rows.filter fun r => p (key r)).map key)).map
        (fun u => f (group key u (rows.filter fun r => p (key r)))) =
      ((fromKeys (rows.map key)).filter p).map fun u => f (group key u rows) := by
  rw [map_key_filter, fromKeys_filter]
  refine List.map_congr_left fun u hu => ?_
  rw [group_filter (List.mem_filter.mp hu).2]

/-! ### Totals -/

/-- **The total over the groups.** The keys are listed once each, and no row is without one. -/
theorem sum_eq_sum_groups {M : Type} [AddCommMonoid M] (key : ρ → α) (g : ρ → M) {keys : List α}
    (hkeys : keys.Nodup) : ∀ {rows : List ρ}, (∀ r ∈ rows, key r ∈ keys) →
      (rows.map g).sum = (keys.map fun u => ((group key u rows).map g).sum).sum := by
  induction keys with
  | nil =>
    intro rows hrows
    have hnil : rows = [] := List.eq_nil_iff_forall_not_mem.mpr fun r hr => nomatch hrows r hr
    rw [hnil]
    rfl
  | cons u keys ih =>
    obtain ⟨hu, hkeys⟩ := List.nodup_cons.mp hkeys
    intro rows hrows
    have hrest : ∀ r ∈ rows.filter (key · ≠ u), key r ∈ keys := by
      intro r hr
      obtain ⟨hr, hne⟩ := List.mem_filter.mp hr
      exact (List.mem_cons.mp (hrows r hr)).resolve_left (of_decide_eq_true hne)
    have hgroups : ∀ v ∈ keys, group key v (rows.filter (key · ≠ u)) = group key v rows := by
      intro v hv
      exact group_filter (p := fun w => decide (w ≠ u))
        (decide_eq_true fun h => hu (h ▸ hv)) rows
    have htotals : keys.map (fun v => ((group key v (rows.filter (key · ≠ u))).map g).sum) =
        keys.map fun v => ((group key v rows).map g).sum :=
      List.map_congr_left fun v hv => by rw [hgroups v hv]
    rw [List.map_cons, List.sum_cons, ← htotals, ← ih hkeys hrest]
    exact (List.sum_map_filter_add_sum_map_filter_not (key · = u) g rows).symm

/-- The keys that occur are enough. -/
theorem sum_groupBy {M : Type} [AddCommMonoid M] (key : ρ → α) (g : ρ → M) (rows : List ρ) :
    (rows.map g).sum = ((fromKeys (rows.map key)).map fun u => ((group key u rows).map g).sum).sum :=
  sum_eq_sum_groups key g (nodup_fromKeys _) fun _ hr => mem_fromKeys.mpr (List.mem_map_of_mem hr)

/-- The mean, or `0` of nothing. -/
def mean (xs : List ℚ) : ℚ := if xs.isEmpty then 0 else xs.sum / xs.length

theorem length_mul_mean (xs : List ℚ) : xs.length * mean xs = xs.sum := by
  rcases xs with - | ⟨x, xs⟩
  · simp [mean]
  · have hlength : ((x :: xs).length : ℚ) ≠ 0 := Nat.cast_ne_zero.mpr (Nat.succ_ne_zero _)
    rw [mean, List.isEmpty_cons, if_neg Bool.false_ne_true, mul_div_cancel₀ _ hlength]

/-! ### Permutations -/

theorem mean_perm {xs ys : List ℚ} (h : xs.Perm ys) : mean xs = mean ys := by
  rw [mean, mean, h.sum_eq, h.length_eq, h.isEmpty_eq]

theorem mean_eq (xs : List ℚ) : mean xs = xs.sum / xs.length := by
  rcases xs with - | ⟨x, xs⟩
  · simp [mean]
  · rw [mean, List.isEmpty_cons, if_neg Bool.false_ne_true]

theorem mean_le_mean {f g : ρ → ℚ} {rows : List ρ} (h : ∀ r ∈ rows, f r ≤ g r) :
    mean (rows.map f) ≤ mean (rows.map g) := by
  rw [mean_eq, mean_eq, List.length_map, List.length_map]
  exact div_le_div_of_nonneg_right (List.sum_le_sum h) (Nat.cast_nonneg _)

theorem mean_const {rows : List ρ} (hrows : rows ≠ []) (c : ℚ) :
    mean (rows.map fun _ => c) = c := by
  have hlength : (rows.length : ℚ) ≠ 0 :=
    Nat.cast_ne_zero.mpr fun hnil => hrows (List.length_eq_zero_iff.mp hnil)
  rw [mean_eq, List.map_const', List.sum_replicate, List.length_replicate, nsmul_eq_mul,
    mul_div_cancel_left₀ c hlength]

/-- The mean over groups of one size is the mean of the means of the groups. -/
theorem mean_groups {k : ℕ} (key : ρ → α) (g : ρ → ℚ) {rows : List ρ}
    (hsize : ∀ u ∈ rows.map key, (group key u rows).length = k) :
    mean (rows.map g) =
      mean ((fromKeys (rows.map key)).map fun u => mean ((group key u rows).map g)) := by
  have hlength : rows.length = (fromKeys (rows.map key)).length * k := by
    have hsum := sum_groupBy key (fun _ => 1) rows
    have hgroups : ((fromKeys (rows.map key)).map fun u => ((group key u rows).map fun _ => 1).sum) =
        (fromKeys (rows.map key)).map fun _ => k :=
      List.map_congr_left fun u hu => by
        rw [List.map_const', List.sum_replicate, nsmul_eq_mul, mul_one, Nat.cast_id,
          hsize u (mem_fromKeys.mp hu)]
    rw [hgroups, List.map_const', List.sum_replicate, List.map_const', List.sum_replicate] at hsum
    simpa using hsum
  have hmeans : ((fromKeys (rows.map key)).map fun u => mean ((group key u rows).map g)) =
      (fromKeys (rows.map key)).map fun u => ((group key u rows).map g).sum * (k : ℚ)⁻¹ :=
    List.map_congr_left fun u hu => by
      rw [mean_eq, List.length_map, hsize u (mem_fromKeys.mp hu), div_eq_mul_inv]
  rw [mean_eq, mean_eq, hmeans, List.sum_map_mul_right, ← sum_groupBy key g rows, List.length_map,
    List.length_map, hlength, Nat.cast_mul, div_eq_mul_inv, div_eq_mul_inv, mul_inv_rev, mul_assoc]

theorem fromKeys_perm_of_perm {us vs : List α} (h : us.Perm vs) :
    (fromKeys us).Perm (fromKeys vs) :=
  (List.perm_ext_iff_of_nodup (nodup_fromKeys _) (nodup_fromKeys _)).mpr fun u => by
    rw [mem_fromKeys, mem_fromKeys, h.mem_iff]

theorem group_perm {key : ρ → α} {u : α} {rows rows' : List ρ} (h : rows.Perm rows') :
    (group key u rows).Perm (group key u rows') := h.filter _

/-- A permutation is sorted alike, when different rows have different keys. -/
theorem insertionSort_perm {κ : Type} [LinearOrder κ] (key : ρ → κ) {rows rows' : List ρ}
    (hinj : ∀ r ∈ rows, ∀ r' ∈ rows, key r = key r' → r = r') (h : rows.Perm rows') :
    rows.insertionSort (fun a b => key a ≤ key b) =
      rows'.insertionSort (fun a b => key a ≤ key b) := by
  have htotal : Std.Total fun a b : ρ => key a ≤ key b := ⟨fun a b => le_total _ _⟩
  have htrans : IsTrans ρ fun a b => key a ≤ key b := ⟨fun _ _ _ => le_trans⟩
  refine List.Perm.eq_of_pairwise (fun a b ha hb hab hba => ?_) (List.pairwise_insertionSort _ rows)
    (List.pairwise_insertionSort _ rows') ?_
  · rw [List.mem_insertionSort] at ha hb
    exact hinj a ha b (h.mem_iff.mpr hb) (le_antisymm hab hba)
  · exact (List.perm_insertionSort _ rows).trans (h.trans (List.perm_insertionSort _ rows').symm)

end Grouping

end ToolAgent
