import Mathlib.Data.List.Basic
import Mathlib.Algebra.Order.Ring.Int

/-!
# Padding and masks

A list is padded to a width at one of its sides, and a mask of ones and zeros is padded along with
it. What the mask selects of the padded list is the list. The running counts of a mask number what
it selects.

## Main definitions

* `Side.pad` — a list, padded at one side
* `select` — the elements at the places where a mask is not zero
* `positions` — the running counts of a mask, from zero on

## Main results

* `Side.select_pad` — padding loses nothing
* `select_positions` — what is selected is numbered without gaps
-/

namespace ToolAgent

namespace Padding

variable {α β : Type}

inductive Side where
  | left
  | right
  deriving DecidableEq

/-- `xs`, padded with `fill` to the width `n`. A longer list stays as it is. -/
def Side.pad (side : Side) (n : ℕ) (fill : α) (xs : List α) : List α :=
  match side with
  | .left => List.replicate (n - xs.length) fill ++ xs
  | .right => xs ++ List.replicate (n - xs.length) fill

@[simp] theorem Side.length_pad (side : Side) (n : ℕ) (fill : α) (xs : List α) :
    (side.pad n fill xs).length = max n xs.length := by
  cases side with
  | left =>
    simp only [pad, List.length_append, List.length_replicate]
    omega
  | right =>
    simp only [pad, List.length_append, List.length_replicate]
    omega

/-- The elements where the mask is not zero. -/
def select (mask : List ℤ) (xs : List α) : List α :=
  ((mask.zip xs).filter fun p => p.1 ≠ 0).map Prod.snd

@[simp] theorem select_nil (xs : List α) : select [] xs = [] := rfl

theorem select_cons (m : ℤ) (mask : List ℤ) (x : α) (xs : List α) :
    select (m :: mask) (x :: xs) = if m = 0 then select mask xs else x :: select mask xs := by
  by_cases hm : m = 0
  · simp [select, hm]
  · simp [select, hm]

theorem select_append {mask₁ mask₂ : List ℤ} {xs₁ xs₂ : List α} (h : mask₁.length = xs₁.length) :
    select (mask₁ ++ mask₂) (xs₁ ++ xs₂) = select mask₁ xs₁ ++ select mask₂ xs₂ := by
  rw [select, List.zip_append h, List.filter_append, List.map_append]
  rfl

@[simp] theorem select_zeros (n : ℕ) (xs : List α) : select (List.replicate n 0) xs = [] := by
  induction n generalizing xs with
  | zero => rfl
  | succ n ih =>
    cases xs with
    | nil => rfl
    | cons x xs => rw [List.replicate_succ, select_cons, if_pos rfl, ih]

@[simp] theorem select_ones (xs : List α) : select (List.replicate xs.length 1) xs = xs := by
  induction xs with
  | nil => rfl
  | cons x xs ih => rw [List.length_cons, List.replicate_succ, select_cons, if_neg one_ne_zero, ih]

/-- **Padding loses nothing**: the mask that is padded with zeros selects the list, and of another
list of the same width what that has there. -/
theorem Side.select_pad_zip (side : Side) (n : ℕ) (fill : β) (xs : List α) (ys : List β)
    (h : ys.length = xs.length) :
    select (side.pad n 0 (List.replicate xs.length 1)) (side.pad n fill ys) = ys := by
  have hones : select (List.replicate xs.length 1) ys = ys := by
    rw [← h, select_ones]
  cases side with
  | left =>
    rw [pad, pad, select_append (by simp [h]), select_zeros, hones, List.nil_append]
  | right =>
    rw [pad, pad, select_append (by simp [h]), hones, List.length_replicate, select_zeros,
      List.append_nil]

theorem Side.select_pad (side : Side) (n : ℕ) (fill : α) (xs : List α) :
    select (side.pad n 0 (List.replicate xs.length 1)) (side.pad n fill xs) = xs :=
  side.select_pad_zip n fill xs xs rfl

theorem zipWith_mul_ones (ys : List ℤ) :
    List.zipWith (· * ·) ys (List.replicate ys.length 1) = ys := by
  induction ys with
  | nil => rfl
  | cons y ys ih => rw [List.length_cons, List.replicate_succ, List.zipWith_cons_cons, ih, mul_one]

/-- What is multiplied with a padded mask is padded with zeros. -/
theorem zipWith_mul_pad (n : ℕ) (fill : ℤ) (ys : List ℤ) :
    List.zipWith (· * ·) (Side.right.pad n fill ys) (Side.right.pad n 0 (List.replicate ys.length 1)) =
      Side.right.pad n 0 ys := by
  rw [Side.pad, Side.pad, List.zipWith_append (by simp), zipWith_mul_ones, List.length_replicate,
    List.zipWith_replicate]
  simp [Side.pad]

/-- If the mask is longer than the list, some of the filling shows. -/
theorem zipWith_mul_pad_longer {n k : ℕ} (fill : ℤ) {ys : List ℤ} (hk : ys.length ≤ k)
    (hn : k ≤ n) :
    List.zipWith (· * ·) (Side.right.pad n fill ys) (Side.right.pad n 0 (List.replicate k 1)) =
      Side.right.pad n 0 (ys ++ List.replicate (k - ys.length) fill) := by
  have hfill : Side.right.pad n fill ys =
      Side.right.pad n fill (ys ++ List.replicate (k - ys.length) fill) := by
    simp only [Side.pad, List.append_assoc, List.replicate_append_replicate, List.length_append,
      List.length_replicate]
    congr 2
    omega
  have hlength : (ys ++ List.replicate (k - ys.length) fill).length = k := by
    simp only [List.length_append, List.length_replicate]
    omega
  have hmul := zipWith_mul_pad n fill (ys ++ List.replicate (k - ys.length) fill)
  rw [hlength] at hmul
  rw [hfill, hmul]

/-! ### Positions -/

/-- The running sums, from `acc` on. -/
def cumsum (acc : ℤ) : List ℤ → List ℤ
  | [] => []
  | m :: mask => (acc + m) :: cumsum (acc + m) mask

/-- The running counts, from zero on. -/
def positions (mask : List ℤ) : List ℤ := (cumsum 0 mask).map fun n => max (n - 1) 0

/-- **What is selected is numbered** without gaps. -/
theorem select_positions {mask : List ℤ} (h : ∀ m ∈ mask, m = 0 ∨ m = 1) :
    select mask (positions mask) = (List.range (mask.countP (· ≠ 0))).map Nat.cast := by
  suffices hfrom : ∀ acc : ℕ, select mask ((cumsum acc mask).map fun n => max (n - 1) 0) =
      (List.range' acc (mask.countP (· ≠ 0))).map Nat.cast by
    rw [positions, List.range_eq_range']
    exact hfrom 0
  induction mask with
  | nil => exact fun _ => rfl
  | cons m mask ih =>
    intro acc
    have hrest := ih fun m' hm' => h m' (List.mem_cons_of_mem _ hm')
    rw [cumsum, List.map_cons, select_cons, List.countP_cons]
    rcases h m List.mem_cons_self with rfl | rfl
    · rw [if_pos rfl, add_zero, hrest acc]
      simp
    · have hnext := hrest (acc + 1)
      rw [Nat.cast_add, Nat.cast_one] at hnext
      rw [if_neg one_ne_zero, hnext]
      simp [List.range'_succ]

end Padding

end ToolAgent
