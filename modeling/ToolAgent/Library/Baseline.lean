import Mathlib.Algebra.BigOperators.Ring.List
import Mathlib.Algebra.Order.BigOperators.Group.List
import Mathlib.Algebra.Order.Field.Basic
import Mathlib.Tactic.Linarith
import Mathlib.Tactic.Ring

/-!
# Values relative to their mean

The deviations of some values from their mean sum to zero. So they vanish exactly when the values
are all equal, and if they are not, some value is above the mean and some is below it.

## Main results

* `sum_sub_mean` — the deviations sum to zero
* `sub_mean_eq_zero_iff` — when they vanish
* `exists_mean_lt`, `exists_lt_mean` — values on both sides
-/

namespace ToolAgent

namespace Baseline

variable {K : Type} [Field K]

def mean (xs : List K) : K := xs.sum / xs.length

theorem sum_map_sub (xs : List K) (c : K) : (xs.map (· - c)).sum = xs.sum - xs.length * c := by
  induction xs with
  | nil => simp
  | cons x xs ih =>
    rw [List.map_cons, List.sum_cons, ih, List.sum_cons, List.length_cons, Nat.cast_succ]
    ring

variable [LinearOrder K] [IsStrictOrderedRing K] {xs : List K}

theorem sum_sub_mean (h : xs ≠ []) : (xs.map (· - mean xs)).sum = 0 := by
  have hlength : (xs.length : K) ≠ 0 := Nat.cast_ne_zero.mpr (by simpa using h)
  rw [sum_map_sub, mean, mul_div_cancel₀ _ hlength, sub_self]

/-- Values of one sign that sum to zero are zero. -/
theorem eq_zero_of_sum_nonneg {ys : List K} (hnonneg : ∀ y ∈ ys, 0 ≤ y) (hsum : ys.sum = 0) :
    ∀ y ∈ ys, y = 0 := by
  induction ys with
  | nil => simp
  | cons y ys ih =>
    have hy := hnonneg y List.mem_cons_self
    have hys : ∀ y' ∈ ys, 0 ≤ y' := fun y' hy' => hnonneg y' (List.mem_cons_of_mem _ hy')
    have hrest : 0 ≤ ys.sum := List.sum_nonneg hys
    rw [List.sum_cons] at hsum
    have hzero : y = 0 := by linarith
    have hsumZero : ys.sum = 0 := by linarith
    intro y' hy'
    rcases List.mem_cons.mp hy' with rfl | hmem
    · exact hzero
    · exact ih hys hsumZero y' hmem

theorem mean_of_equal {c : K} (hne : xs ≠ []) (h : ∀ x ∈ xs, x = c) : mean xs = c := by
  have hlength : (xs.length : K) ≠ 0 := Nat.cast_ne_zero.mpr (by simpa using hne)
  rw [mean, List.eq_replicate_of_mem h, List.sum_replicate, List.length_replicate, nsmul_eq_mul,
    mul_div_cancel_left₀ c hlength]

/-- **The deviations vanish** exactly when the values are all equal. -/
theorem sub_mean_eq_zero_iff :
    (∀ x ∈ xs, x - mean xs = 0) ↔ ∀ x ∈ xs, ∀ y ∈ xs, x = y := by
  constructor
  · intro h x hx y hy
    rw [sub_eq_zero.mp (h x hx), sub_eq_zero.mp (h y hy)]
  · intro h x hx
    rw [mean_of_equal (List.ne_nil_of_mem hx) fun y hy => h y hy x hx, sub_self]

/-- Values that are not all equal are not all at most their mean. -/
theorem exists_mean_lt {x y : K} (hx : x ∈ xs) (hy : y ∈ xs) (hxy : x ≠ y) :
    ∃ z ∈ xs, mean xs < z := by
  by_contra! hall
  have hnonneg : ∀ d ∈ xs.map fun z => mean xs - z, 0 ≤ d := by
    intro d hd
    obtain ⟨z, hz, rfl⟩ := List.mem_map.mp hd
    exact sub_nonneg.mpr (hall z hz)
  have hsum : (xs.map fun z => mean xs - z).sum = 0 := by
    have hneg : (xs.map fun z => mean xs - z) = (xs.map (· - mean xs)).map Neg.neg := by
      rw [List.map_map]
      exact List.map_congr_left fun z _ => (neg_sub z _).symm
    rw [hneg, ← List.sum_neg, sum_sub_mean (List.ne_nil_of_mem hx), neg_zero]
  have hzero := eq_zero_of_sum_nonneg hnonneg hsum
  have hxm := sub_eq_zero.mp (hzero _ (List.mem_map_of_mem hx))
  have hym := sub_eq_zero.mp (hzero _ (List.mem_map_of_mem hy))
  exact hxy (hxm.symm.trans hym)

theorem exists_lt_mean {x y : K} (hx : x ∈ xs) (hy : y ∈ xs) (hxy : x ≠ y) :
    ∃ z ∈ xs, z < mean xs := by
  by_contra! hall
  have hnonneg : ∀ d ∈ xs.map (· - mean xs), 0 ≤ d := by
    intro d hd
    obtain ⟨z, hz, rfl⟩ := List.mem_map.mp hd
    exact sub_nonneg.mpr (hall z hz)
  have hzero := eq_zero_of_sum_nonneg hnonneg (sum_sub_mean (List.ne_nil_of_mem hx))
  have hxm := sub_eq_zero.mp (hzero _ (List.mem_map_of_mem hx))
  have hym := sub_eq_zero.mp (hzero _ (List.mem_map_of_mem hy))
  exact hxy (hxm.trans hym.symm)

end Baseline

end ToolAgent
