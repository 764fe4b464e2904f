import Mathlib.Data.List.Basic
import Mathlib.Algebra.Order.Ring.Nat

/-!
# Chunks of equal length

Cutting a list into chunks of `k` elements and joining them are inverse to each other, for a list
whose length is a multiple of `k` and for parts of length `k`.
-/

namespace ToolAgent

namespace Chunks

variable {α β : Type} {k : ℕ}

/-- The chunks of `k` elements. What is left at the end is dropped. -/
def chunks (k : ℕ) (l : List α) : List (List α) :=
  (List.range (l.length / k)).map fun i => (l.drop (i * k)).take k

theorem length_chunks (l : List α) : (chunks k l).length = l.length / k := by
  rw [chunks, List.length_map, List.length_range]

theorem length_of_mem_chunks {l x : List α} (hx : x ∈ chunks k l) : x.length = k := by
  obtain ⟨i, hi, rfl⟩ := List.mem_map.mp hx
  have hle : (i + 1) * k ≤ l.length :=
    (Nat.mul_le_mul_right k (List.mem_range.mp hi)).trans (Nat.div_mul_le_self _ _)
  rw [Nat.succ_mul] at hle
  rw [List.length_take, List.length_drop]
  omega

theorem chunks_append {x : List α} (hk : 0 < k) (hx : x.length = k) (l : List α) :
    chunks k (x ++ l) = x :: chunks k l := by
  have hlength : (x ++ l).length / k = l.length / k + 1 := by
    rw [List.length_append, hx, Nat.add_div_left _ hk]
  rw [chunks, hlength, List.range_succ_eq_map, List.map_cons, List.map_map, chunks]
  refine congrArg₂ List.cons ?_ (List.map_congr_left fun i _ => ?_)
  · rw [Nat.zero_mul, List.drop_zero, List.take_left' hx]
  · show ((x ++ l).drop ((i + 1) * k)).take k = (l.drop (i * k)).take k
    rw [Nat.succ_mul, Nat.add_comm, ← List.drop_drop, List.drop_left' hx]

theorem chunks_nil : chunks k ([] : List α) = [] := by
  rw [chunks, List.length_nil, Nat.zero_div]
  rfl

/-- **Cutting what was joined.** -/
theorem chunks_flatten (hk : 0 < k) : ∀ {ls : List (List α)}, (∀ l ∈ ls, l.length = k) →
    chunks k ls.flatten = ls
  | [], _ => chunks_nil
  | l :: ls, h => by
    obtain ⟨hl, hls⟩ := List.forall_mem_cons.mp h
    rw [List.flatten_cons, chunks_append hk hl, chunks_flatten hk hls]

/-- **Joining what was cut.** -/
theorem flatten_chunks (hk : 0 < k) : ∀ {n : ℕ} {l : List α}, l.length = n * k →
    (chunks k l).flatten = l
  | 0, l, h => by
    rw [Nat.zero_mul, List.length_eq_zero_iff] at h
    rw [h, chunks_nil]
    rfl
  | n + 1, l, h => by
    have hk' : k ≤ l.length := by rw [h, Nat.succ_mul]; exact Nat.le_add_left _ _
    have hrest : (l.drop k).length = n * k := by rw [List.length_drop, h, Nat.succ_mul]; omega
    rw [← List.take_append_drop k l, chunks_append hk (List.length_take_of_le hk'),
      List.flatten_cons,
      flatten_chunks hk hrest]

end Chunks

end ToolAgent
