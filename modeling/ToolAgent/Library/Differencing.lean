import Mathlib.Algebra.Order.BigOperators.Group.List
import Mathlib.Algebra.Order.Group.Defs
import Mathlib.Data.List.Sort
import Mathlib.Tactic.Abel
import Mathlib.Tactic.Linarith

/-!
# The differencing method

Items are distributed over some bundles. The method starts from many small distributions, each a
list of bundles with the heaviest one first, and combines two of them until one is left: the
heaviest bundle of the one is joined with the lightest of the other, and so on.

No two bundles of a combination differ by more than two bundles of its parts do. So a bound that the
small distributions keep is kept to the end, in whatever order they are combined. Bundles that
differ by no more than one item make the heaviest of them at most twice as heavy as it has to be.

## Main results

* `Within.combine` — combining keeps the differences within a bound
* `combine_perm` — no item is lost
* `filled_combine` — empty bundles are filled
* `weigh_le_two_mul` — how good bundles are that differ by one item
-/

namespace ToolAgent

namespace Differencing

variable {ι V : Type}

/-! ### Bundles -/

/-- The heaviest bundle of the one with the lightest of the other. -/
def combine (a b : List (List ι)) : List (List ι) := List.zipWith (· ++ ·) a b.reverse

section Items

variable {a b : List (List ι)}

theorem flatten_zipWith_perm : ∀ {a b : List (List ι)}, a.length = b.length →
    (List.zipWith (· ++ ·) a b).flatten.Perm (a.flatten ++ b.flatten)
  | [], [], _ => .nil
  | x :: a, y :: b, h => by
    have ih : (List.zipWith (· ++ ·) a b).flatten.Perm (a.flatten ++ b.flatten) :=
      flatten_zipWith_perm (Nat.succ.inj h)
    rw [List.zipWith_cons_cons, List.flatten_cons, List.flatten_cons, List.flatten_cons,
      List.append_assoc, List.append_assoc]
    refine List.Perm.append_left x ((List.Perm.append_left y ih).trans ?_)
    rw [← List.append_assoc, ← List.append_assoc]
    exact List.Perm.append_right _ List.perm_append_comm

/-- **No item is lost.** -/
theorem combine_perm (h : a.length = b.length) :
    (combine a b).flatten.Perm (a.flatten ++ b.flatten) := by
  refine (flatten_zipWith_perm (by rw [List.length_reverse, h])).trans ?_
  exact List.Perm.append_left _ (List.reverse_perm b).flatten

/-- Bundles of one size. -/
theorem length_of_mem_combine {m n : ℕ} (ha : ∀ x ∈ a, x.length = m) (hb : ∀ y ∈ b, y.length = n) :
    ∀ z ∈ combine a b, z.length = m + n := by
  intro z hz
  rw [combine, List.mem_iff_getElem] at hz
  obtain ⟨i, hi, rfl⟩ := hz
  rw [List.getElem_zipWith, List.length_append, ha _ (List.getElem_mem _),
    hb _ (List.mem_reverse.mp (List.getElem_mem _))]

/-- The bundles with an item. -/
def filled (a : List (List ι)) : ℕ := a.countP fun x => !x.isEmpty

theorem filled_perm {a b : List (List ι)} (h : a.Perm b) : filled a = filled b := h.countP_eq _

theorem filled_cons_of_ne {x : List ι} (hx : x ≠ []) (a : List (List ι)) :
    filled (x :: a) = filled a + 1 := by
  rw [filled, filled, List.countP_cons_of_pos (by simpa using hx)]

theorem filled_cons_nil (a : List (List ι)) : filled ([] :: a) = filled a :=
  List.countP_cons_of_neg (by simp)

theorem filled_le_length (a : List (List ι)) : filled a ≤ a.length := List.countP_le_length

theorem filled_eq_zero (h : ∀ x ∈ a, x = []) : filled a = 0 := by
  rw [filled, List.countP_eq_zero]
  intro x hx
  simp [h x hx]

theorem filled_eq_length (h : ∀ x ∈ a, x ≠ []) : filled a = a.length := by
  rw [filled, List.countP_eq_length]
  intro x hx
  simpa using h x hx

/-- All bundles are filled. -/
theorem ne_nil_of_filled (h : a.length ≤ filled a) : ∀ x ∈ a, x ≠ [] := by
  have hall := List.countP_eq_length.mp (le_antisymm (filled_le_length a) h)
  intro x hx
  simpa using hall x hx

theorem filled_le_zipWith : ∀ {a b : List (List ι)}, a.length = b.length →
    filled b ≤ filled (List.zipWith (· ++ ·) a b)
  | [], [], _ => le_rfl
  | x :: a, y :: b, h => by
    have ih : filled b ≤ filled (List.zipWith (· ++ ·) a b) := filled_le_zipWith (Nat.succ.inj h)
    rw [List.zipWith_cons_cons]
    rcases eq_or_ne (x ++ y) [] with hxy | hxy
    · rw [(List.append_eq_nil_iff.mp hxy).2, (List.append_eq_nil_iff.mp hxy).1, filled_cons_nil,
        List.nil_append, filled_cons_nil]
      exact ih
    · rw [filled_cons_of_ne hxy]
      rcases eq_or_ne y [] with hy | hy
      · rw [hy, filled_cons_nil]
        omega
      · rw [filled_cons_of_ne hy]
        omega

/-- The bundles with an item come first. -/
def FilledFirst (a : List (List ι)) : Prop := a.Pairwise fun x y => y ≠ [] → x ≠ []

/-- The one list is filled from the front and the other from the back. -/
theorem filled_zipWith : ∀ {a b : List (List ι)}, a.length = b.length → FilledFirst a →
    (b.Pairwise fun x y => x ≠ [] → y ≠ []) →
    min a.length (filled a + filled b) ≤ filled (List.zipWith (· ++ ·) a b)
  | [], [], _, _, _ => le_rfl
  | x :: a, y :: b, h, ha, hb => by
    obtain ⟨hx, ha⟩ := List.pairwise_cons.mp ha
    obtain ⟨hy, hb⟩ := List.pairwise_cons.mp hb
    have ih : min a.length (filled a + filled b) ≤ filled (List.zipWith (· ++ ·) a b) :=
      filled_zipWith (Nat.succ.inj h) ha hb
    have hrest : filled b ≤ filled (List.zipWith (· ++ ·) a b) := filled_le_zipWith (Nat.succ.inj h)
    rcases eq_or_ne x [] with rfl | hxne
    · -- nothing comes after an empty bundle
      have hempty : filled ([] :: a) = 0 :=
        filled_eq_zero (List.forall_mem_cons.mpr ⟨rfl, fun z hz => by
          by_contra hne
          exact hx z hz hne rfl⟩)
      rw [hempty, zero_add]
      exact (min_le_right _ _).trans (filled_le_zipWith h)
    · have hhead : x ++ y ≠ [] := fun hnil => hxne (List.append_eq_nil_iff.mp hnil).1
      rw [List.zipWith_cons_cons, filled_cons_of_ne hhead, filled_cons_of_ne hxne, List.length_cons]
      rcases eq_or_ne y [] with rfl | hyne
      · rw [filled_cons_nil]
        omega
      · have hfull : filled b = b.length := filled_eq_length fun z hz => hy z hz hyne
        have hlength : a.length = b.length := Nat.succ.inj h
        omega

/-- **Empty bundles are filled**, as far as there are items for them. -/
theorem filled_combine (h : a.length = b.length) (ha : FilledFirst a) (hb : FilledFirst b) :
    min a.length (filled a + filled b) ≤ filled (combine a b) := by
  rw [← filled_perm (List.reverse_perm b)]
  exact filled_zipWith (by rw [List.length_reverse, h]) ha (List.pairwise_reverse.mpr hb)

end Items

/-! ### Weights -/

section Weights

variable [AddCommGroup V] {w : ι → V} {a b : List (List ι)} {D : V}

def weigh (w : ι → V) (x : List ι) : V := (x.map w).sum

theorem weigh_append (w : ι → V) (x y : List ι) : weigh w (x ++ y) = weigh w x + weigh w y := by
  rw [weigh, List.map_append, List.sum_append, weigh, weigh]

theorem weigh_perm {x y : List ι} (h : x.Perm y) : weigh w x = weigh w y := (h.map w).sum_eq

theorem sum_weigh (w : ι → V) (a : List (List ι)) : (a.map (weigh w)).sum = weigh w a.flatten := by
  induction a with
  | nil => rfl
  | cons x a ih => rw [List.map_cons, List.sum_cons, ih, List.flatten_cons, weigh_append]

variable [LinearOrder V]

/-- The heaviest bundle comes first. -/
def Decreasing (w : ι → V) (a : List (List ι)) : Prop := a.Pairwise fun x y => weigh w y ≤ weigh w x

/-- No two bundles differ by more than `D`. -/
def Within (w : ι → V) (D : V) (a : List (List ι)) : Prop :=
  ∀ x ∈ a, ∀ y ∈ a, weigh w x ≤ weigh w y + D

theorem Within.perm (h : Within w D a) (hab : a.Perm b) : Within w D b :=
  fun x hx y hy => h x (hab.mem_iff.mpr hx) y (hab.mem_iff.mpr hy)

/-- Some bundle is the heaviest. -/
theorem exists_heaviest : ∀ {a : List (List ι)}, a ≠ [] → ∃ x ∈ a, ∀ y ∈ a, weigh w y ≤ weigh w x
  | [x], _ => ⟨x, List.mem_singleton_self x, fun y hy => (congrArg (weigh w) (List.mem_singleton.mp hy)).le⟩
  | x :: z :: a, _ => by
    obtain ⟨m, hm, hmax⟩ := exists_heaviest (List.cons_ne_nil z a)
    rcases le_total (weigh w m) (weigh w x) with hle | hle
    · exact ⟨x, List.mem_cons_self, List.forall_mem_cons.mpr ⟨le_rfl, fun y hy => (hmax y hy).trans hle⟩⟩
    · exact ⟨m, List.mem_cons_of_mem _ hm, List.forall_mem_cons.mpr ⟨hle, hmax⟩⟩

variable [IsOrderedAddMonoid V]

/-- **Combining keeps the differences within a bound**: where one part grows the other one
shrinks. -/
theorem Within.combine (h : a.length = b.length) (ha : Within w D a) (hb : Within w D b)
    (hda : Decreasing w a) (hdb : Decreasing w b) : Within w D (combine a b) := by
  have hrev : b.reverse.Pairwise fun x y => weigh w x ≤ weigh w y := List.pairwise_reverse.mpr hdb
  intro x hx y hy
  rw [Differencing.combine, List.mem_iff_getElem] at hx hy
  obtain ⟨i, hi, rfl⟩ := hx
  obtain ⟨j, hj, rfl⟩ := hy
  rw [List.length_zipWith, List.length_reverse, ← h, min_self] at hi hj
  have hi' : i < b.reverse.length := by rw [List.length_reverse, ← h]; exact hi
  have hj' : j < b.reverse.length := by rw [List.length_reverse, ← h]; exact hj
  rw [List.getElem_zipWith, List.getElem_zipWith, weigh_append, weigh_append]
  have hD : (0 : V) ≤ D := by
    have hself := ha _ (List.getElem_mem hi) _ (List.getElem_mem hi)
    exact (le_add_iff_nonneg_right _).mp hself
  rcases lt_trichotomy i j with hij | rfl | hij
  · have h1 := ha _ (List.getElem_mem hi) _ (List.getElem_mem hj)
    have h2 := List.pairwise_iff_getElem.mp hrev i j hi' hj' hij
    calc weigh w a[i] + weigh w b.reverse[i] ≤ weigh w a[j] + D + weigh w b.reverse[j] :=
      add_le_add h1 h2
      _ = weigh w a[j] + weigh w b.reverse[j] + D := add_right_comm _ _ _
  · exact le_add_of_nonneg_right hD
  · have h1 := List.pairwise_iff_getElem.mp hda j i hj hi hij
    have h2 := hb _ (List.mem_reverse.mp (List.getElem_mem hi')) _
      (List.mem_reverse.mp (List.getElem_mem hj'))
    calc weigh w a[i] + weigh w b.reverse[i] ≤ weigh w a[j] + (weigh w b.reverse[j] + D) :=
      add_le_add h1 h2
      _ = weigh w a[j] + weigh w b.reverse[j] + D := (add_assoc _ _ _).symm

/-! ### How good a distribution is -/

/-- No bundle is heavier than the mean by more than `D`. -/
theorem Within.nsmul_weigh_le (h : Within w D a) {x : List ι} (hx : x ∈ a) :
    a.length • weigh w x ≤ weigh w a.flatten + a.length • D := by
  calc a.length • weigh w x = (a.map fun _ => weigh w x).sum := by rw [List.map_const', List.sum_replicate]
    _ ≤ (a.map fun y => weigh w y + D).sum := List.sum_le_sum fun y hy => h x hx y hy
    _ = weigh w a.flatten + a.length • D := by
        rw [List.sum_map_add, List.map_const', List.sum_replicate, ← sum_weigh]

theorem le_weigh {x : List ι} {i : ι} (hw : ∀ i, 0 ≤ w i) (hi : i ∈ x) : w i ≤ weigh w x :=
  List.single_le_sum (fun v hv => by
    obtain ⟨j, -, rfl⟩ := List.mem_map.mp hv
    exact hw j) _ (List.mem_map_of_mem hi)

/-- **Bundles that differ by one item** are at most twice as heavy as the heaviest bundle of any
other distribution of the items over as many bundles. -/
theorem weigh_le_two_mul {i : ι} (hw : ∀ i, 0 ≤ w i) (hD : Within w (w i) a) (hi : i ∈ a.flatten)
    (hlength : b.length = a.length) (hperm : b.flatten.Perm a.flatten) :
    ∃ y ∈ b, ∀ x ∈ a, weigh w x ≤ weigh w y + weigh w y := by
  have hne : b ≠ [] := by
    rintro rfl
    exact List.not_mem_nil (hperm.mem_iff.mpr hi)
  obtain ⟨y, hy, hmax⟩ := exists_heaviest (w := w) hne
  refine ⟨y, hy, fun x hx => ?_⟩
  obtain ⟨z, hz, hiz⟩ := List.mem_flatten.mp (hperm.mem_iff.mpr hi)
  have hitem : w i ≤ weigh w y := (le_weigh hw hiz).trans (hmax z hz)
  -- some bundle of the first distribution is at most as heavy as the heaviest of the second
  obtain ⟨x', hx', hlight⟩ : ∃ x' ∈ a, weigh w x' ≤ weigh w y := by
    by_contra! hall
    have hsum : (b.map (weigh w)).sum < (a.map (weigh w)).sum := by
      calc (b.map (weigh w)).sum ≤ (b.map (weigh w)).length • weigh w y :=
            List.sum_le_card_nsmul _ _ fun v hv => by
              obtain ⟨u, hu, rfl⟩ := List.mem_map.mp hv
              exact hmax u hu
        _ = (a.map fun _ => weigh w y).sum := by
            rw [List.length_map, hlength, List.map_const', List.sum_replicate]
        _ < (a.map (weigh w)).sum := List.sum_lt_sum _ _ (fun u hu => (hall u hu).le)
          ⟨x, hx, hall x hx⟩
    rw [sum_weigh, sum_weigh, weigh_perm hperm] at hsum
    exact lt_irrefl _ hsum
  exact (hD x hx x' hx').trans (add_le_add hlight hitem)

end Weights

end Differencing

end ToolAgent
