import Mathlib.Algebra.BigOperators.Group.Finset.Basic
import Mathlib.Algebra.BigOperators.Group.Finset.Piecewise
import Mathlib.Data.Fintype.BigOperators
import Mathlib.Data.List.Count
import Mathlib.Data.List.FinRange
import Mathlib.Data.List.Nodup

/-!
# Grouping rows by a key

A batch is a list of rows, and a group is the sublist of the rows that carry one key. Batches grow
by appending rows and by repeating rows, and both are followed group by group here.

## Main definitions

* `group key u rows` — the rows whose key is `u`, in order
* `fromKeys us` — the distinct keys
* `repeatInterleave k rows` — each row `k` times, in order

## Main results

* `length_eq_sum_group` — a batch is as long as its groups together
* `count_repeatInterleave` — the group sizes of a repeated batch
-/

namespace ToolAgent

namespace Grouping

variable {ρ α : Type} [DecidableEq α]

/-- The rows whose key is `u`. -/
def group (key : ρ → α) (u : α) (rows : List ρ) : List ρ := rows.filter (key · = u)

theorem group_append (key : ρ → α) (u : α) (rows rows' : List ρ) :
    group key u (rows ++ rows') = group key u rows ++ group key u rows' :=
  List.filter_append _ _

theorem group_cons_self (key : ρ → α) (r : ρ) (rows : List ρ) :
    group key (key r) (r :: rows) = r :: group key (key r) rows := by
  simp [group]

theorem group_cons_of_ne {key : ρ → α} {u : α} {r : ρ} (h : key r ≠ u) (rows : List ρ) :
    group key u (r :: rows) = group key u rows := by
  simp [group, h]

/-- When `keys` names each key of the batch once, the batch is as long as its groups together. -/
theorem length_eq_sum_group {ι : Type} [Fintype ι] [DecidableEq ι] (key : ρ → α) (keys : ι → α)
    (hinj : Function.Injective keys) {rows : List ρ} (hrows : ∀ r ∈ rows, ∃ i, key r = keys i) :
    rows.length = ∑ i, (group key (keys i) rows).length := by
  induction rows with
  | nil => simp [group]
  | cons r rows ih =>
    obtain ⟨⟨j, hj⟩, hrows⟩ := List.forall_mem_cons.mp hrows
    have hstep : ∀ i, (group key (keys i) (r :: rows)).length =
        (if i = j then 1 else 0) + (group key (keys i) rows).length := by
      intro i
      by_cases hij : i = j
      · rw [if_pos hij, hij, ← hj, group_cons_self, List.length_cons, Nat.add_comm]
      · have hne : key r ≠ keys i := fun h => hij (hinj (h.symm.trans hj))
        rw [if_neg hij, group_cons_of_ne hne, Nat.zero_add]
    rw [List.length_cons, ih hrows, Finset.sum_congr rfl fun i _ => hstep i,
      Finset.sum_add_distrib, Finset.sum_ite_eq', if_pos (Finset.mem_univ j), Nat.add_comm]

/-! ### The keys that occur -/

/-- The distinct keys, in the order of their first occurrence. -/
def fromKeys : List α → List α
  | [] => []
  | u :: us => u :: (fromKeys us).filter (· ≠ u)

theorem mem_fromKeys {us : List α} {u : α} : u ∈ fromKeys us ↔ u ∈ us := by
  induction us with
  | nil => rfl
  | cons v us ih =>
    rw [fromKeys, List.mem_cons, List.mem_cons, List.mem_filter, ih, decide_eq_true_eq]
    by_cases h : u = v
    · simp [h]
    · simp [h]

theorem nodup_fromKeys (us : List α) : (fromKeys us).Nodup := by
  induction us with
  | nil => exact List.nodup_nil
  | cons v us ih =>
    rw [fromKeys, List.nodup_cons]
    refine ⟨?_, ih.filter _⟩
    simp

/-- When `keys` names each key of the batch once, and each occurs, these are the distinct keys. -/
theorem fromKeys_perm {n : ℕ} (key : ρ → α) (keys : Fin n → α) (hinj : Function.Injective keys)
    {rows : List ρ} (hrows : ∀ r ∈ rows, ∃ i, key r = keys i)
    (hoccurs : ∀ i, group key (keys i) rows ≠ []) :
    (fromKeys (rows.map key)).Perm ((List.finRange n).map keys) := by
  refine (List.perm_ext_iff_of_nodup (nodup_fromKeys _)
    ((List.nodup_finRange n).map hinj)).mpr fun u => ?_
  rw [mem_fromKeys, List.mem_map, List.mem_map]
  constructor
  · rintro ⟨r, hr, rfl⟩
    obtain ⟨i, hi⟩ := hrows r hr
    exact ⟨i, List.mem_finRange i, hi.symm⟩
  · rintro ⟨i, -, rfl⟩
    obtain ⟨r, hr⟩ := List.exists_mem_of_ne_nil _ (hoccurs i)
    rw [group, List.mem_filter, decide_eq_true_eq] at hr
    exact ⟨r, hr⟩

/-- Every row `k` times in a row. -/
def repeatInterleave (k : ℕ) (rows : List ρ) : List ρ := rows.flatMap (List.replicate k)

theorem count_repeatInterleave (k : ℕ) (us : List α) (u : α) :
    (repeatInterleave k us).count u = k * us.count u := by
  induction us with
  | nil => simp [repeatInterleave]
  | cons v us ih =>
    rw [repeatInterleave, List.flatMap_cons, List.count_append, ← repeatInterleave, ih,
      List.count_replicate, List.count_cons]
    by_cases h : v = u
    · simp [h, Nat.mul_add, Nat.add_comm]
    · simp [h]

end Grouping

end ToolAgent
