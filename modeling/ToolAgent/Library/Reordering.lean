import Mathlib.Data.List.Perm.Basic
import Mathlib.Data.List.Range

/-!
# Reordering

Every other element of a list, and the inverse of a reordering: where a list of positions takes each
element once, writing the place of each position next to it gives the positions that take the
elements back.

## Main results

* `everyOther_perm` — the elements at even and at odd positions are all elements
* `reverseIdx_map` — the inverse restores the order
-/

namespace ToolAgent

namespace Reordering

variable {α : Type}

/-! ### Every other element -/

/-- `xs[::2]`; then `xs[1::2]` is `everyOther xs.tail`. -/
def everyOther : List α → List α
  | [] => []
  | [x] => [x]
  | x :: _ :: xs => x :: everyOther xs

theorem everyOther_sublist : ∀ xs : List α, (everyOther xs).Sublist xs
  | [] => .slnil
  | [_] => .refl _
  | x :: y :: xs => ((everyOther_sublist xs).cons y).cons_cons x

theorem everyOther_perm : ∀ xs : List α, (everyOther xs ++ everyOther xs.tail).Perm xs
  | [] => .nil
  | [_] => .refl _
  | [x, y] => .refl _
  | x :: y :: z :: xs => by
    have ih : (everyOther (z :: xs) ++ everyOther xs).Perm (z :: xs) := everyOther_perm (z :: xs)
    show (x :: (everyOther (z :: xs) ++ y :: everyOther xs)).Perm (x :: y :: z :: xs)
    exact (List.perm_middle.trans (ih.cons y)).cons x

/-! ### The inverse -/

/-- Each place is written at its position. -/
def reverseIdx (idx : List ℕ) : List ℕ := idx.zipIdx.foldl (fun r p => r.set p.1 p.2) idx

theorem length_foldl_set (ps : List (ℕ × ℕ)) (r : List ℕ) :
    (ps.foldl (fun r p => r.set p.1 p.2) r).length = r.length := by
  induction ps generalizing r with
  | nil => rfl
  | cons p ps ih => rw [List.foldl_cons, ih, List.length_set]

/-- What is written at positions that are not repeated stays there. -/
theorem getElem?_foldl_set {ps : List (ℕ × ℕ)} (hnodup : (ps.map Prod.fst).Nodup) {r : List ℕ} :
    (∀ i, i ∉ ps.map Prod.fst → (ps.foldl (fun r p => r.set p.1 p.2) r)[i]? = r[i]?) ∧
      ∀ p ∈ ps, p.1 < r.length → (ps.foldl (fun r p => r.set p.1 p.2) r)[p.1]? = some p.2 := by
  induction ps generalizing r with
  | nil => simp
  | cons q ps ih =>
    obtain ⟨hq, hnodup⟩ := List.nodup_cons.mp hnodup
    obtain ⟨hother, hwritten⟩ := ih hnodup (r := r.set q.1 q.2)
    constructor
    · intro i hi
      rw [List.map_cons, List.mem_cons, not_or] at hi
      rw [List.foldl_cons, hother i hi.2, List.getElem?_set_ne (Ne.symm hi.1)]
    · intro p hp hlt
      rw [List.foldl_cons]
      rcases List.mem_cons.mp hp with rfl | hmem
      · rw [hother _ hq, List.getElem?_set_self hlt]
      · exact hwritten p hmem (by rwa [List.length_set])

/-- **The order is restored.** -/
theorem reverseIdx_map {idx : List ℕ} {n : ℕ} (h : idx.Perm (List.range n)) (f : ℕ → α) :
    (reverseIdx idx).map (fun j => (idx.map f)[j]?) = (List.range n).map fun i => some (f i) := by
  have hlength : idx.length = n := by rw [h.length_eq, List.length_range]
  have hkeys : idx.zipIdx.map Prod.fst = idx := List.zipIdx_map_fst 0 idx
  have hnodup : (idx.zipIdx.map Prod.fst).Nodup := by
    rw [hkeys]
    exact h.nodup_iff.mpr List.nodup_range
  refine List.ext_getElem? fun i => ?_
  rw [List.getElem?_map, List.getElem?_map]
  rcases lt_or_ge i n with hi | hi
  · obtain ⟨j, hj, hij⟩ := List.mem_iff_getElem.mp (h.mem_iff.mpr (List.mem_range.mpr hi))
    have hmem : (i, j) ∈ idx.zipIdx := by
      rw [List.mem_zipIdx_iff_getElem?, List.getElem?_eq_getElem hj, hij]
    have hread : (reverseIdx idx)[i]? = some j :=
      (getElem?_foldl_set hnodup).2 (i, j) hmem (by rw [hlength]; exact hi)
    rw [hread, List.getElem?_range hi, Option.map_some, Option.map_some, List.getElem?_map,
      List.getElem?_eq_getElem hj, hij, Option.map_some]
  · have hnone : (reverseIdx idx)[i]? = none := by
      rw [List.getElem?_eq_none_iff, reverseIdx, length_foldl_set, hlength]
      exact hi
    have hrange : (List.range n)[i]? = none := by
      rw [List.getElem?_eq_none_iff, List.length_range]
      exact hi
    rw [hnone, hrange, Option.map_none, Option.map_none]

/-- The same for lists: `data` has the values at `idx`, and `out` all values in order. -/
theorem reverseIdx_restores {idx : List ℕ} {n : ℕ} (h : idx.Perm (List.range n))
    {value : ℕ → Option α}
    {data out : List α} (hdata : idx.map value = data.map some)
    (hout : (List.range n).map value = out.map some) :
    (reverseIdx idx).map (fun j => data[j]?) = out.map some := by
  have hrestored := congrArg (List.map (Option.getD · none)) (reverseIdx_map h value)
  rw [hdata, List.map_map, List.map_map] at hrestored
  rw [← hout]
  refine Eq.trans (List.map_congr_left fun j _ => ?_) hrestored
  rw [Function.comp_apply, List.getElem?_map]
  cases data[j]? <;> rfl

end Reordering

end ToolAgent
