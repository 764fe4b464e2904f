import Mathlib.Data.List.MinMax

/-!
# The first of the greatest

`List.argmax` takes the first element with the greatest key. A loop that replaces its best element
only by a strictly greater one computes it, and so does the head of a stable sort by falling key.

## Main results

* `exists_index_of_argmax` — where the first of the greatest stands
* `foldl_eq_argmax` — the loop
* `head?_mergeSort` — the stable sort
-/

namespace ToolAgent

namespace Argmax

variable {α β κ : Type} [LinearOrder κ]

/-- What is greatest among the values of a list: none of them is greater, and those before it are
smaller. -/
theorem exists_index_of_argmax {f : β → κ} {w : α → Option β} {xs : List α} :
    ∀ {m : β}, (xs.filterMap w).argmax f = some m → ∃ (i : ℕ) (x : α), xs[i]? = some x ∧
      w x = some m ∧
      ∀ (j : ℕ) (y : α) (n : β), xs[j]? = some y → w y = some n → f n ≤ f m ∧
        (j < i → f n < f m) := by
  induction xs with
  | nil =>
    intro m h
    cases h
  | cons x xs ih =>
    intro m h
    rcases hx : w x with - | v
    · rw [List.filterMap_cons_none hx] at h
      obtain ⟨i, y, hi, hm, hmax⟩ := ih h
      refine ⟨i + 1, y, hi, hm, fun j z n hj hn => ?_⟩
      rcases j with - | j
      · obtain rfl := Option.some.inj hj
        rw [hx] at hn
        cases hn
      · obtain ⟨hle, hbefore⟩ := hmax j z n hj hn
        exact ⟨hle, fun hlt => hbefore (Nat.lt_of_succ_lt_succ hlt)⟩
    · rw [List.filterMap_cons_some hx, List.argmax_cons] at h
      rcases hrest : (xs.filterMap w).argmax f with - | c
      · -- nothing follows that counts
        rw [hrest] at h
        obtain rfl := Option.some.inj h
        have hnil : xs.filterMap w = [] := List.argmax_eq_none.mp hrest
        refine ⟨0, x, rfl, hx, fun j z n hj hn => ⟨?_, fun hlt => absurd hlt (Nat.not_lt_zero j)⟩⟩
        rcases j with - | j
        · obtain rfl := Option.some.inj hj
          rw [Option.some.inj (hn.symm.trans hx)]
        · have hnone := List.filterMap_eq_nil_iff.mp hnil z (List.mem_of_getElem? hj)
          rw [hnone] at hn
          cases hn
      · obtain ⟨i, y, hi, hc, hmax⟩ := ih hrest
        rw [hrest] at h
        dsimp only at h
        split at h
        · next hlt =>
          obtain rfl := Option.some.inj h
          refine ⟨i + 1, y, hi, hc, fun j z n hj hn => ?_⟩
          rcases j with - | j
          · obtain rfl := Option.some.inj hj
            rw [Option.some.inj (hn.symm.trans hx)]
            exact ⟨hlt.le, fun _ => hlt⟩
          · obtain ⟨hle, hbefore⟩ := hmax j z n hj hn
            exact ⟨hle, fun hlt => hbefore (Nat.lt_of_succ_lt_succ hlt)⟩
        · next hle =>
          obtain rfl := Option.some.inj h
          refine ⟨0, x, rfl, hx, fun j z n hj hn => ⟨?_, fun hlt => absurd hlt (Nat.not_lt_zero j)⟩⟩
          rcases j with - | j
          · obtain rfl := Option.some.inj hj
            rw [Option.some.inj (hn.symm.trans hx)]
          · exact (hmax j z n hj hn).1.trans (not_lt.mp hle)

/-- The first part may be replaced by its best element. -/
theorem argmax_toList_append (f : α → κ) (xs ys : List α) :
    ((xs.argmax f).toList ++ ys).argmax f = (xs ++ ys).argmax f := by
  have hstart : ∀ best : Option α, (best.toList ++ ys).argmax f =
      ys.foldl (List.argAux fun b c => f c < f b) best := fun best => by
    rcases best with - | x
    · rfl
    · rfl
  rw [hstart, List.argmax, List.argmax, List.foldl_append]

theorem argmax_map (f : β → κ) (g : α → β) (xs : List α) :
    (xs.map g).argmax f = (xs.argmax (f ∘ g)).map g := by
  induction xs with
  | nil => rfl
  | cons x xs ih =>
    rw [List.map_cons, List.argmax_cons, List.argmax_cons, ih]
    rcases xs.argmax (f ∘ g) with - | c
    · rfl
    · simp only [Option.map_some, Function.comp_apply]
      split
      · rfl
      · rfl

/-- A loop with a best element so far. -/
theorem foldl_eq_argmax (f : α → κ) (x : α) (xs : List α) :
    (x :: xs).argmax f = some (xs.foldl (fun best y => if f best < f y then y else best) x) := by
  induction xs using List.reverseRecOn with
  | nil => rfl
  | append_singleton xs y ih =>
    rw [← List.cons_append, List.argmax_concat, ih, List.foldl_append]
    simp only [List.foldl_cons, List.foldl_nil]
    split
    · rfl
    · rfl

/-- A stable sort by falling key begins with the first of the greatest. -/
theorem head?_mergeSort (f : α → κ) (xs : List α) :
    (xs.mergeSort fun a b => decide (f b ≤ f a)).head? = xs.argmax f := by
  have htrans : ∀ a b c : α, decide (f b ≤ f a) = true → decide (f c ≤ f b) = true →
      decide (f c ≤ f a) = true := fun a b c hab hbc =>
    decide_eq_true ((of_decide_eq_true hbc).trans (of_decide_eq_true hab))
  have htotal : ∀ a b : α, (decide (f b ≤ f a) || decide (f a ≤ f b)) = true := fun a b => by
    simpa using le_total (f b) (f a)
  induction xs with
  | nil =>
    rw [List.mergeSort_nil]
    rfl
  | cons x xs ih =>
    obtain ⟨before, after, hsort, hrest, hbefore⟩ := List.mergeSort_cons htrans htotal x xs
    have hsorted := List.pairwise_mergeSort htrans htotal (x :: xs)
    rw [hsort] at hsorted ⊢
    rw [List.argmax_cons, ← ih, hrest]
    rcases before with - | ⟨b, before⟩
    · -- `x` is first: what follows is not greater
      rcases after with - | ⟨a, after⟩
      · rfl
      · have hle : f a ≤ f x :=
          of_decide_eq_true (List.rel_of_pairwise_cons hsorted List.mem_cons_self)
        simp only [List.nil_append, List.head?_cons, if_neg (not_lt.mpr hle)]
    · have hlt : f x < f b := by simpa using hbefore b List.mem_cons_self
      simp only [List.cons_append, List.head?_cons, if_pos hlt]

end Argmax

end ToolAgent
