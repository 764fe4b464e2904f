import ToolAgent.Library.Grouping
import Mathlib.Data.List.Sort

/-!
# A part of every group

A batch is cut down by choosing some of the indices of every group, collecting them group by group,
and reading the rows off the sorted indices. Sorting undoes the order of the groups, so the new
batch is a sublist of the old one, and its groups are the chosen parts.

## Main definitions

* `indicesOf us u` — the indices at which `us` has the key `u`
* `kept us part` — the chosen indices of all keys
* `Parts us part` — the indices are chosen among those of the key, in order

## Main results

* `selected_sublist`, `group_selected` — the rows that are read off the sorted indices
-/

namespace ToolAgent

namespace Selection

open Grouping

variable {ρ α : Type} [DecidableEq α]

/-- The indices of the key `u`. -/
def indicesOf (us : List α) (u : α) : List ℕ :=
  (List.range us.length).filter fun i => us[i]? = some u

/-- The indices that are chosen of each key, by order of the keys. -/
def kept (us : List α) (part : α → List ℕ) : List ℕ := (fromKeys us).flatMap part

/-- Of every key, some of its indices. -/
def Parts (us : List α) (part : α → List ℕ) : Prop := ∀ u, (part u).Sublist (indicesOf us u)

section Indices

variable {us : List α} {part : α → List ℕ} {u : α} {i : ℕ}

theorem mem_indicesOf : i ∈ indicesOf us u ↔ us[i]? = some u := by
  rw [indicesOf, List.mem_filter, List.mem_range, decide_eq_true_eq]
  exact ⟨fun h => h.2, fun h => ⟨(List.getElem?_eq_some_iff.mp h).1, h⟩⟩

theorem sortedLT_range (n : ℕ) : (List.range n).SortedLT :=
  List.pairwise_lt_range.sortedLT

theorem sortedLT_indicesOf (us : List α) (u : α) : (indicesOf us u).SortedLT :=
  (List.pairwise_lt_range.filter _).sortedLT

theorem range_map_getElem? (rows : List ρ) :
    (List.range rows.length).map (fun i => rows[i]?) = rows.map some := by
  refine List.ext_getElem (by simp) fun i hi _ => ?_
  have hlt : i < rows.length := by simpa using hi
  simp [hlt]

/-- Reading the rows off their indices. -/
theorem indicesOf_map_getElem? (key : ρ → α) (rows : List ρ) (u : α) :
    (indicesOf (rows.map key) u).map (fun i => rows[i]?) = (group key u rows).map some := by
  have hfilter : indicesOf (rows.map key) u = (List.range rows.length).filter
      ((fun r? => decide (r?.map key = some u)) ∘ fun i => rows[i]?) := by
    rw [indicesOf, List.length_map]
    refine List.filter_congr fun i _ => ?_
    rw [List.getElem?_map]
    rfl
  rw [hfilter, ← List.filter_map, range_map_getElem?, List.filter_map, group]
  congr 1
  refine List.filter_congr fun r _ => ?_
  simp

theorem mem_kept (hpart : Parts us part) :
    i ∈ kept us part ↔ ∃ u, us[i]? = some u ∧ i ∈ part u := by
  rw [kept, List.mem_flatMap]
  constructor
  · rintro ⟨u, -, hi⟩
    exact ⟨u, mem_indicesOf.mp ((hpart u).subset hi), hi⟩
  · rintro ⟨u, hu, hi⟩
    exact ⟨u, mem_fromKeys.mpr (List.mem_of_getElem? hu), hi⟩

theorem nodup_kept (hpart : Parts us part) : (kept us part).Nodup := by
  rw [kept, List.nodup_flatMap]
  refine ⟨fun u _ => (hpart u).nodup (sortedLT_indicesOf us u).nodup, ?_⟩
  refine (nodup_fromKeys us).imp fun {u v} huv i hu hv => huv ?_
  have hiu := mem_indicesOf.mp ((hpart u).subset hu)
  exact Option.some.inj (hiu.symm.trans (mem_indicesOf.mp ((hpart v).subset hv)))

theorem sortedLT_kept (hpart : Parts us part) :
    ((kept us part).insertionSort (· ≤ ·)).SortedLT :=
  List.sortedLE_insertionSort.sortedLT_of_nodup
    ((List.perm_insertionSort _ _).nodup_iff.mpr (nodup_kept hpart))

theorem kept_sublist_range (hpart : Parts us part) :
    ((kept us part).insertionSort (· ≤ ·)).Sublist (List.range us.length) := by
  refine List.sublist_of_subperm_of_pairwise ?_ (sortedLT_kept hpart).sortedLE.pairwise
    (sortedLT_range _).sortedLE.pairwise
  refine List.subperm_of_subset (sortedLT_kept hpart).nodup fun i hi => ?_
  rw [List.mem_insertionSort, mem_kept hpart] at hi
  obtain ⟨u, hu, -⟩ := hi
  exact List.mem_range.mpr (List.getElem?_eq_some_iff.mp hu).1

/-- Sorting keeps the parts. -/
theorem filter_kept (hpart : Parts us part) (u : α) :
    ((kept us part).insertionSort (· ≤ ·)).filter (fun i => us[i]? = some u) = part u := by
  refine List.SortedLT.eq_of_mem_iff ((sortedLT_kept hpart).pairwise.filter _).sortedLT
    ((sortedLT_indicesOf us u).pairwise.sublist (hpart u)).sortedLT fun i => ?_
  rw [List.mem_filter, List.mem_insertionSort, mem_kept hpart, decide_eq_true_eq]
  constructor
  · rintro ⟨⟨v, hv, hi⟩, hu⟩
    rw [hu, Option.some.injEq] at hv
    rwa [hv]
  · intro hi
    have hu := mem_indicesOf.mp ((hpart u).subset hi)
    exact ⟨⟨u, hu, hi⟩, hu⟩

end Indices

/-! ### The selected rows -/

section Rows

variable {key : ρ → α} {rows out : List ρ} {part : α → List ℕ}

/-- Rows that are read off indices in range, as a partial map of the indices. -/
theorem eq_filterMap {indices : List ℕ}
    (hout : out.map some = indices.map fun i => rows[i]?) :
    out = indices.filterMap fun i => rows[i]? := by
  have h := congrArg (List.filterMap id) hout
  rwa [List.filterMap_map, List.filterMap_map, Function.id_comp, Function.id_comp,
    List.filterMap_some] at h

/-- **Order.** The rows stay in order, and none comes twice. -/
theorem selected_sublist (hpart : Parts (rows.map key) part) (hout : out.map some =
      ((kept (rows.map key) part).insertionSort (· ≤ ·)).map fun i => rows[i]?) :
    out.Sublist rows := by
  have hsub := (kept_sublist_range hpart).filterMap fun i => rows[i]?
  rwa [← eq_filterMap hout, List.length_map, ← eq_filterMap (range_map_getElem? rows).symm] at hsub

/-- **Groups.** The group of `u` is its part. -/
theorem group_selected (hpart : Parts (rows.map key) part) (hout : out.map some =
      ((kept (rows.map key) part).insertionSort (· ≤ ·)).map fun i => rows[i]?) (u : α) :
    (group key u out).map some = (part u).map fun i => rows[i]? := by
  rw [← filter_kept hpart u]
  have hfilter : (group key u out).map some =
      (out.map some).filter fun r? => decide (r?.map key = some u) := by
    rw [List.filter_map, group]
    congr 1
    refine List.filter_congr fun r _ => ?_
    simp
  rw [hfilter, hout, List.filter_map]
  congr 1
  refine List.filter_congr fun i _ => ?_
  rw [List.getElem?_map]
  rfl

end Rows

end Selection

end ToolAgent
