import Mathlib.Data.Finset.Max
import Mathlib.Data.List.Lex
import Mathlib.Data.Prod.Lex
import ToolAgent.Library.Chunks
import ToolAgent.Library.Differencing
import ToolAgent.Python.Value

/-!
# Balanced partitions

`karmarkar_karp` and `get_seqlen_balanced_partitions` of `verl.utils.seqlen_balancing`, by which the
trainer distributes the rows of a batch over its ranks: many small states, each with one set of rows
for every rank, are merged by pairs until one is left.

## Main definitions

* `Set`, `State` — with what the comments of the source say about them as fields
* `karmarkarKarp`, `getSeqlenBalancedPartitions`
* `Balanced` — what a result is

## Main results

* `State.Fair.merge`, `mergeStates_fair` — what one merge, and all of them, preserve
* `getSeqlenBalancedPartitions_iff` — when partitions are returned, and how balanced they are
-/

namespace ToolAgent

namespace SeqlenBalancing

open Python

/-! ### Sets -/

/-- Rows and their lengths, with the sum. -/
structure Set where
  items : List (ℕ × ℤ)
  sum : ℤ
  sum_eq : sum = (items.map Prod.snd).sum

def Set.empty : Set := ⟨[], 0, rfl⟩

def Set.add (s : Set) (idx : ℕ) (val : ℤ) : Set where
  items := s.items ++ [(idx, val)]
  sum := s.sum + val
  sum_eq := by rw [List.map_append, List.sum_append, s.sum_eq, List.map_singleton, List.sum_singleton]

def Set.merge (s other : Set) : Set := other.items.foldl (fun s item => s.add item.1 item.2) s

/-- `(idx, val) < (idx', val')` -/
def itemLt (a b : ℕ × ℤ) : Bool := if a.1 ≠ b.1 then a.1 < b.1 else a.2 < b.2

/-- `self.items < other.items` -/
def itemsLt : List (ℕ × ℤ) → List (ℕ × ℤ) → Bool
  | _, [] => false
  | [], _ :: _ => true
  | a :: as, b :: bs => if a ≠ b then itemLt a b else itemsLt as bs

/-- `__lt__` -/
def Set.lt (s other : Set) : Bool :=
  if s.sum ≠ other.sum then s.sum < other.sum
  else if s.items.length ≠ other.items.length then s.items.length < other.items.length
  else itemsLt s.items other.items

theorem Set.merge_items (s other : Set) : (s.merge other).items = s.items ++ other.items := by
  rw [merge]
  induction other.items generalizing s with
  | nil => rw [List.foldl_nil, List.append_nil]
  | cons item items ih =>
    rw [List.foldl_cons, ih]
    show s.items ++ [item] ++ items = s.items ++ item :: items
    rw [List.append_assoc, List.singleton_append]

theorem Set.sum_eq_weigh (s : Set) : s.sum = Differencing.weigh Prod.snd s.items := s.sum_eq

/-- What sets are compared by. -/
def Set.key (s : Set) : ℤ ×ₗ ℕ ×ₗ List (ℕ ×ₗ ℤ) :=
  toLex (s.sum, toLex (s.items.length, s.items.map toLex))

theorem itemLt_iff (a b : ℕ × ℤ) : itemLt a b = true ↔ toLex a < toLex b := by
  rw [itemLt, Prod.Lex.toLex_lt_toLex]
  split
  · next hne =>
    rw [decide_eq_true_iff]
    exact ⟨.inl, fun h => h.resolve_right fun heq => hne heq.1⟩
  · next heq =>
    rw [not_not] at heq
    rw [decide_eq_true_iff, heq]
    exact ⟨fun h => .inr ⟨rfl, h⟩, fun h => (h.resolve_left (lt_irrefl _)).2⟩

theorem itemsLt_iff : ∀ as bs : List (ℕ × ℤ), itemsLt as bs = true ↔ as.map toLex < bs.map toLex
  | as, [] => by simp [itemsLt]
  | [], b :: bs => by simp [itemsLt]
  | a :: as, b :: bs => by
    rw [itemsLt, List.map_cons, List.map_cons, List.cons_lt_cons_iff]
    split
    · next hne =>
      rw [itemLt_iff]
      exact ⟨.inl, fun h => h.resolve_right fun heq => hne (toLex.injective heq.1)⟩
    · next heq =>
      rw [not_not] at heq
      rw [itemsLt_iff as bs, heq]
      exact ⟨fun h => .inr ⟨rfl, h⟩, fun h => (h.resolve_left (lt_irrefl _)).2⟩

theorem Set.lt_iff (s other : Set) : s.lt other = true ↔ s.key < other.key := by
  rw [lt, key, key, Prod.Lex.toLex_lt_toLex, Prod.Lex.toLex_lt_toLex]
  dsimp only
  split
  · next hne =>
    rw [decide_eq_true_iff]
    exact ⟨.inl, fun h => h.resolve_right fun heq => hne heq.1⟩
  · next heq =>
    rw [not_not] at heq
    rw [heq]
    split
    · next hne =>
      rw [decide_eq_true_iff]
      exact ⟨fun h => .inr ⟨rfl, .inl h⟩,
        fun h => (h.resolve_left (lt_irrefl _)).2.resolve_right fun heq => hne heq.1⟩
    · next heq' =>
      rw [not_not] at heq'
      rw [heq', itemsLt_iff]
      exact ⟨fun h => .inr ⟨rfl, .inr ⟨rfl, h⟩⟩,
        fun h => ((h.resolve_left (lt_irrefl _)).2.resolve_left (lt_irrefl _)).2⟩

/-- `sorted(sets, reverse=True)` -/
def sortedReverse (sets : List Set) : List Set := sets.insertionSort fun a b => a.lt b = false

theorem sortedReverse_perm (sets : List Set) : (sortedReverse sets).Perm sets :=
  List.perm_insertionSort _ _

theorem Set.lt_eq_false_iff (a b : Set) : a.lt b = false ↔ b.key ≤ a.key := by
  rw [← Bool.not_eq_true, Set.lt_iff, not_lt]

theorem sortedReverse_decreasing (sets : List Set) :
    (sortedReverse sets).Pairwise fun a b => a.lt b = false := by
  have : Std.Total fun a b : Set => a.lt b = false :=
    ⟨fun a b => by rw [Set.lt_eq_false_iff, Set.lt_eq_false_iff]; exact le_total _ _⟩
  have : IsTrans Set fun a b => a.lt b = false :=
    ⟨fun a b c hab hbc => by
      rw [Set.lt_eq_false_iff] at *
      exact hbc.trans hab⟩
  exact List.pairwise_insertionSort _ sets

/-! ### States -/

/-- One set for each of the `k` partitions: "sets should always be decreasing order". -/
structure State (k : ℕ) where
  sets : List Set
  length_sets : sets.length = k
  pos : 0 < k
  decreasing : sets.Pairwise fun a b => a.lt b = false

variable {k : ℕ}

theorem State.sets_ne_nil (s : State k) : s.sets ≠ [] :=
  List.ne_nil_of_length_pos (s.length_sets.symm ▸ s.pos)

def State.sort (sets : List Set) (h : sets.length = k) (pos : 0 < k) : State k where
  sets := sortedReverse sets
  length_sets := (sortedReverse_perm sets).length_eq.trans h
  pos := pos
  decreasing := sortedReverse_decreasing sets

/-- `str(n)` -/
def text (n : ℕ) : PyStr := PyStr.ofString (toString n)

/-- The items, each in a set of its own. -/
def State.new (items : List (ℕ × ℤ)) (k : ℕ) : Except PyErr (State k) :=
  if h : items.length = 1 ∨ items.length = k then
    if pos : 0 < k then
      .ok (.sort (items.map (fun item => Set.empty.add item.1 item.2) ++
        List.replicate (k - items.length) Set.empty) (by simp; omega) pos)
    else throw .indexError "list index out of range"
  else .error ⟨.assertionError, text items.length ++ " not in [1, " ++ text k ++ "]"⟩

def State.getPartitions (s : State k) : List (List ℕ) :=
  s.sets.map fun set => set.items.map Prod.fst

def State.merge (s other : State k) : State k :=
  .sort (List.zipWith Set.merge s.sets other.sets.reverse)
    (by rw [List.length_zipWith, List.length_reverse, s.length_sets, other.length_sets, min_self]) s.pos

def State.spread (s : State k) : ℤ :=
  (s.sets.head s.sets_ne_nil).sum - (s.sets.getLast s.sets_ne_nil).sum

/-- `__lt__`: the state with the largest spread is the least. -/
def State.lt (s other : State k) : Bool :=
  if s.spread ≠ other.spread then other.spread < s.spread
  else (other.sets.head other.sets_ne_nil).lt (s.sets.head s.sets_ne_nil)

/-- `heappop`: the least state and the others. -/
def heappop : List (State k) → Option (State k × List (State k))
  | [] => none
  | s :: pq =>
    match heappop pq with
    | none => some (s, [])
    | some (least, others) => if least.lt s then some (least, s :: others) else some (s, pq)

/-- `while len(states_pq) > 1`, with enough fuel for one state less in each round. -/
def mergeStates : ℕ → List (State k) → List (State k)
  | 0, pq => pq
  | fuel + 1, pq =>
    match heappop pq with
    | none => pq
    | some (state0, pq') =>
      match heappop pq' with
      | none => pq
      | some (state1, pq'') => mergeStates fuel (state0.merge state1 :: pq'')

/-! ### Partitions -/

/-- `(seqlen, i) <= (seqlen', i')` -/
def pairLe (a b : ℤ × ℕ) : Bool := if a.1 ≠ b.1 then a.1 < b.1 else a.2 ≤ b.2

/-- `sorted([(seqlen, i) for i, seqlen in enumerate(seqlen_list)])`, as items. -/
def sortedItems (seqlen_list : List ℤ) : List (ℕ × ℤ) :=
  (seqlen_list.zipIdx.insertionSort fun a b => pairLe a b = true).map Prod.swap

/-- The states to begin with. -/
def initialStates (seqlen_list : List ℤ) (k_partitions : ℕ) (equal_size : Bool) :
    Except PyErr (List (State k_partitions)) :=
  if equal_size then
    if k_partitions = 0 then throw .zeroDivisionError "integer modulo by zero"
    else if seqlen_list.length % k_partitions = 0 then
      (Chunks.chunks k_partitions (sortedItems seqlen_list)).mapM (State.new · k_partitions)
    else .error ⟨.assertionError, text seqlen_list.length ++ " % " ++ text k_partitions ++ " != 0"⟩
  else (sortedItems seqlen_list).mapM fun item => State.new [item] k_partitions

def karmarkarKarp (seqlen_list : List ℤ) (k_partitions : ℕ) (equal_size : Bool) :
    Except PyErr (List (List ℕ)) := do
  let states_pq ← initialStates seqlen_list k_partitions equal_size
  let final_state ← item (mergeStates states_pq.length states_pq) 0
  let partitions := final_state.getPartitions
  match equal_size, partitions.find? fun part =>
    part.length * k_partitions ≠ seqlen_list.length with
  | true, some part =>
    .error ⟨.assertionError, text part.length ++ " * " ++ text k_partitions ++ " != " ++
      text seqlen_list.length⟩
  | _, _ => .ok partitions

/-- `_check_and_sort_partitions` -/
def checkAndSortPartitions (seqlen_list : List ℤ) (k_partitions : ℕ) (partitions : List (List ℕ)) :
    Except PyErr (List (List ℕ)) :=
  if partitions.length ≠ k_partitions then
    .error ⟨.assertionError, text partitions.length ++ " != " ++ text k_partitions⟩
  else if partitions.any List.isEmpty then
    .error ⟨.assertionError, "the " ++ text (partitions.findIdx List.isEmpty) ++ "-th partition is empty"⟩
  else if (partitions.flatten.all fun i => i < seqlen_list.length) &&
      (List.range seqlen_list.length).all fun i => partitions.flatten.contains i then
    .ok (partitions.map fun part => part.insertionSort (· ≤ ·))
  else throw .assertionError ""

def getSeqlenBalancedPartitions (seqlen_list : List ℤ) (k_partitions : ℕ) (equal_size : Bool) :
    Except PyErr (List (List ℕ)) := do
  if seqlen_list.length < k_partitions then
    .error ⟨.assertionError, "number of items:[" ++ text seqlen_list.length ++ "] < k_partitions:[" ++
      text k_partitions ++ "]"⟩
  else
    let partitions ← karmarkarKarp seqlen_list k_partitions equal_size
    checkAndSortPartitions seqlen_list k_partitions partitions

/-! ### What merging preserves -/

section Merging

open Differencing

def State.bundles (s : State k) : List (List (ℕ × ℤ)) := s.sets.map Set.items

theorem State.length_bundles (s : State k) : s.bundles.length = k := by
  rw [bundles, List.length_map, s.length_sets]

theorem State.decreasing_bundles (s : State k) : Decreasing Prod.snd s.bundles := by
  rw [Decreasing, bundles, List.pairwise_map]
  refine s.decreasing.imp fun {a b} h => ?_
  rw [Set.lt_eq_false_iff, Set.key, Set.key, Prod.Lex.toLex_le_toLex] at h
  rw [← a.sum_eq_weigh, ← b.sum_eq_weigh]
  exact h.elim le_of_lt fun heq => heq.1.le

/-- Without negative lengths an empty set is the least. -/
theorem State.filledFirst (s : State k) (h : ∀ item ∈ s.bundles.flatten, 0 ≤ item.2) :
    FilledFirst s.bundles := by
  rw [FilledFirst, bundles, List.pairwise_map]
  refine s.decreasing.imp_of_mem fun {a b} _ hb hlt hne hnil => ?_
  have hsum : 0 ≤ b.sum := by
    rw [b.sum_eq]
    refine List.sum_nonneg fun v hv => ?_
    obtain ⟨item, hitem, rfl⟩ := List.mem_map.mp hv
    exact h item (List.mem_flatten.mpr ⟨b.items, List.mem_map_of_mem hb, hitem⟩)
  have hzero : a.sum = 0 := by rw [a.sum_eq, hnil, List.map_nil, List.sum_nil]
  have hlength : 0 < b.items.length := List.length_pos_of_ne_nil hne
  rw [← Bool.not_eq_true, Set.lt_iff, Set.key, Set.key, Prod.Lex.toLex_lt_toLex,
    Prod.Lex.toLex_lt_toLex] at hlt
  refine hlt ?_
  rw [hzero, hnil]
  rcases hsum.lt_or_eq with hpos | heq
  · exact .inl hpos
  · exact .inr ⟨heq, .inl hlength⟩

theorem State.merge_bundles (s other : State k) :
    (s.merge other).bundles.Perm (combine s.bundles other.bundles) := by
  have hcombine : combine s.bundles other.bundles =
      (List.zipWith Set.merge s.sets other.sets.reverse).map Set.items := by
    rw [combine, bundles, bundles, ← List.map_reverse, List.zipWith_map, List.map_zipWith]
    exact congrArg (fun f => List.zipWith f s.sets other.sets.reverse)
      (funext fun a => funext fun b => (Set.merge_items a b).symm)
  rw [hcombine]
  exact (sortedReverse_perm _).map Set.items

/-- **What every state is**: its sets differ by at most `D`, as many of them have an item as can
have one, and if they have to be of one size they are. -/
structure State.Fair (D : ℤ) (equal_size : Bool) (s : State k) : Prop where
  within : Within Prod.snd D s.bundles
  nonneg : ∀ item ∈ s.bundles.flatten, 0 ≤ item.2
  filled : min k s.bundles.flatten.length ≤ filled s.bundles
  sized : equal_size = true → ∃ m, ∀ x ∈ s.bundles, x.length = m

variable {D : ℤ} {equal_size : Bool}

theorem State.flatten_merge (s other : State k) :
    (s.merge other).bundles.flatten.Perm (s.bundles.flatten ++ other.bundles.flatten) :=
  (s.merge_bundles other).flatten.trans
    (combine_perm (by rw [s.length_bundles, other.length_bundles]))

/-- **One merge.** -/
theorem State.Fair.merge {s other : State k} (h : s.Fair D equal_size)
    (h' : other.Fair D equal_size) :
    (s.merge other).Fair D equal_size where
  within := by
    have hlength : s.bundles.length = other.bundles.length := by
      rw [s.length_bundles, other.length_bundles]
    exact (h.within.combine hlength h'.within s.decreasing_bundles other.decreasing_bundles).perm
      (s.merge_bundles other).symm
  nonneg item hitem := by
    rcases List.mem_append.mp ((s.flatten_merge other).mem_iff.mp hitem) with hmem | hmem
    · exact h.nonneg item hmem
    · exact h'.nonneg item hmem
  filled := by
    have hlength : s.bundles.length = other.bundles.length := by
      rw [s.length_bundles, other.length_bundles]
    have hcombine := filled_combine hlength (s.filledFirst h.nonneg) (other.filledFirst h'.nonneg)
    have hs := h.filled
    have hother := h'.filled
    rw [(s.flatten_merge other).length_eq, List.length_append, filled_perm (s.merge_bundles other)]
    rw [s.length_bundles] at hcombine
    omega
  sized hequal := by
    obtain ⟨m, hm⟩ := h.sized hequal
    obtain ⟨n, hn⟩ := h'.sized hequal
    exact ⟨m + n, fun x hx => length_of_mem_combine hm hn x ((s.merge_bundles other).mem_iff.mp hx)⟩

theorem heappop_eq_none {pq : List (State k)} : heappop pq = none ↔ pq = [] := by
  cases pq with
  | nil => simp [heappop]
  | cons s pq =>
    simp only [heappop, reduceCtorEq, iff_false]
    split
    · simp
    · split <;> simp

theorem heappop_perm : ∀ {pq : List (State k)} {s : State k} {others : List (State k)},
    heappop pq = some (s, others) → pq.Perm (s :: others)
  | s :: pq, s', others, h => by
    rw [heappop] at h
    split at h
    · next hpop =>
      cases h
      rw [heappop_eq_none.mp hpop]
    · next least rest hpop =>
      split at h
      · cases h
        exact ((heappop_perm hpop).cons s).trans (.swap _ _ _)
      · cases h
        exact .refl _

/-- The items of all states. -/
def itemsOf (pq : List (State k)) : List (ℕ × ℤ) := pq.flatMap fun s => s.bundles.flatten

theorem itemsOf_perm {pq pq' : List (State k)} (h : pq.Perm pq') :
    (itemsOf pq).Perm (itemsOf pq') :=
  h.flatMap_right _

theorem itemsOf_merge (s other : State k) (pq : List (State k)) :
    (itemsOf (s.merge other :: pq)).Perm (itemsOf (s :: other :: pq)) := by
  rw [itemsOf, itemsOf, List.flatMap_cons, List.flatMap_cons, List.flatMap_cons,
    ← List.append_assoc]
  exact (s.flatten_merge other).append_right _

/-- **All merges**: one state is left, which is fair and has all items. -/
theorem mergeStates_fair : ∀ {fuel : ℕ} {pq : List (State k)}, pq ≠ [] → pq.length ≤ fuel + 1 →
    (∀ s ∈ pq, s.Fair D equal_size) →
    ∃ s, mergeStates fuel pq = [s] ∧ s.Fair D equal_size ∧ s.bundles.flatten.Perm (itemsOf pq)
  | 0, [s], _, _, hfair => ⟨s, rfl, hfair s List.mem_cons_self, by simp [itemsOf]⟩
  | 0, _ :: _ :: _, _, hlength, _ => by simp at hlength
  | fuel + 1, pq, hne, hlength, hfair => by
    rw [mergeStates]
    split
    · next hpop => exact absurd (heappop_eq_none.mp hpop) hne
    · next s pq' hpop =>
      have hperm := heappop_perm hpop
      split
      · next hpop' =>
        rw [heappop_eq_none.mp hpop'] at hperm
        rw [List.perm_singleton.mp hperm]
        exact ⟨s, rfl, hfair s (hperm.mem_iff.mpr List.mem_cons_self), by simp [itemsOf]⟩
      · next s' pq'' hpop' =>
        have hperm' : pq.Perm (s :: s' :: pq'') := hperm.trans ((heappop_perm hpop').cons s)
        have hall : ∀ t ∈ s :: s' :: pq'', t.Fair D equal_size :=
          fun t ht => hfair t (hperm'.mem_iff.mpr ht)
        have hmerged : ∀ t ∈ s.merge s' :: pq'', t.Fair D equal_size := by
          rw [List.forall_mem_cons, List.forall_mem_cons] at hall
          exact List.forall_mem_cons.mpr ⟨hall.1.merge hall.2.1, hall.2.2⟩
        have hshorter : (s.merge s' :: pq'').length ≤ fuel + 1 := by
          have hcount := hperm'.length_eq
          rw [List.length_cons, List.length_cons] at hcount
          rw [List.length_cons]
          omega
        obtain ⟨last, hlast, hfairLast, hitems⟩ :=
          mergeStates_fair (List.cons_ne_nil _ _) hshorter hmerged
        exact ⟨last, hlast, hfairLast, hitems.trans ((itemsOf_merge s s' pq'').trans
          (itemsOf_perm hperm'.symm))⟩

end Merging

/-! ### The first states -/

section Initial

open Differencing

variable {D : ℤ} {items : List (ℕ × ℤ)}

theorem State.new_eq (items : List (ℕ × ℤ)) (h : items.length = 1 ∨ items.length = k)
    (pos : 0 < k) :
    ∃ s, State.new items k = .ok s ∧ s.bundles.Perm
      (items.map (fun item => [item]) ++ List.replicate (k - items.length) []) := by
  rw [State.new, dif_pos h, dif_pos pos]
  refine ⟨_, rfl, ((sortedReverse_perm _).map Set.items).trans (.of_eq ?_)⟩
  rw [List.map_append, List.map_map, List.map_replicate]
  rfl

theorem flatten_singletons (items : List (ℕ × ℤ)) (n : ℕ) :
    (items.map (fun item => [item]) ++ List.replicate n []).flatten = items := by
  rw [List.flatten_append, List.flatten_replicate_nil, List.append_nil, ← List.flatMap_def]
  exact List.flatMap_singleton' items

/-- A state whose items are as many as its sets. -/
theorem State.new_fair (h : items.length = k) (pos : 0 < k) (hnonneg : ∀ item ∈ items, 0 ≤ item.2)
    (hD : ∀ item ∈ items, ∀ other ∈ items, item.2 ≤ other.2 + D) :
    ∃ s, State.new items k = .ok s ∧ s.Fair D true ∧ s.bundles.flatten.Perm items := by
  obtain ⟨s, hs, hperm⟩ := State.new_eq items (.inr h) pos
  have hflatten : s.bundles.flatten.Perm items :=
    hperm.flatten.trans (.of_eq (flatten_singletons _ _))
  rw [h, Nat.sub_self, List.replicate_zero, List.append_nil] at hperm
  have hbundle : ∀ x ∈ s.bundles, ∃ item ∈ items, x = [item] := by
    intro x hx
    obtain ⟨item, hitem, rfl⟩ := List.mem_map.mp (hperm.mem_iff.mp hx)
    exact ⟨item, hitem, rfl⟩
  refine ⟨s, hs, ⟨fun x hx y hy => ?_, fun item hitem => hnonneg item (hflatten.mem_iff.mp hitem), ?_,
    fun _ => ⟨1, fun x hx => ?_⟩⟩, hflatten⟩
  · obtain ⟨item, hitem, rfl⟩ := hbundle x hx
    obtain ⟨other, hother, rfl⟩ := hbundle y hy
    simpa [weigh] using hD item hitem other hother
  · rw [filled_eq_length fun x hx => ?_, s.length_bundles]
    · exact min_le_left _ _
    · obtain ⟨item, -, rfl⟩ := hbundle x hx
      exact List.cons_ne_nil _ _
  · obtain ⟨item, -, rfl⟩ := hbundle x hx
    rfl

/-- A state with a single item. -/
theorem State.new_singleton_fair {item : ℕ × ℤ} (pos : 0 < k) (hnonneg : 0 ≤ item.2)
    (hD : item.2 ≤ D) :
    ∃ s, State.new [item] k = .ok s ∧ s.Fair D false ∧ s.bundles.flatten.Perm [item] := by
  obtain ⟨s, hs, hperm⟩ := State.new_eq [item] (.inl rfl) pos
  have hflatten : s.bundles.flatten.Perm [item] :=
    hperm.flatten.trans (.of_eq (flatten_singletons _ _))
  have hweight : ∀ x ∈ s.bundles, 0 ≤ weigh Prod.snd x ∧ weigh Prod.snd x ≤ D := by
    intro x hx
    rcases List.mem_append.mp (hperm.mem_iff.mp hx) with hmem | hmem
    · rw [List.map_singleton, List.mem_singleton] at hmem
      simp [hmem, weigh, hnonneg, hD]
    · rw [List.eq_of_mem_replicate hmem]
      simp [weigh, hnonneg.trans hD]
  refine ⟨s, hs, ⟨fun x hx y hy => ?_, fun other hother => ?_, ?_, fun h => absurd h (by simp)⟩, hflatten⟩
  · have hx' := (hweight x hx).2
    have hy' := (hweight y hy).1
    omega
  · rw [List.mem_singleton.mp (hflatten.mem_iff.mp hother)]
    exact hnonneg
  · rw [hflatten.length_eq, filled_perm hperm, List.map_singleton, List.singleton_append,
      filled_cons_of_ne (List.cons_ne_nil _ _)]
    exact (min_le_right _ _).trans (Nat.le_add_left 1 _)

/-- The lengths that a list of lengths can have items for. -/
theorem mem_sortedItems {seqlen_list : List ℤ} {item : ℕ × ℤ} (h : item ∈ sortedItems seqlen_list) :
    seqlen_list[item.1]? = some item.2 := by
  obtain ⟨pair, hpair, rfl⟩ := List.mem_map.mp h
  exact List.mem_zipIdx_iff_getElem?.mp ((List.perm_insertionSort _ _).mem_iff.mp hpair)

theorem sortedItems_perm (seqlen_list : List ℤ) :
    ((sortedItems seqlen_list).map Prod.fst).Perm (List.range seqlen_list.length) := by
  rw [sortedItems, List.map_map]
  refine ((List.perm_insertionSort _ _).map _).trans (.of_eq ?_)
  rw [List.range_eq_range', ← List.zipIdx_map_snd 0 seqlen_list]
  rfl

theorem length_sortedItems (seqlen_list : List ℤ) :
    (sortedItems seqlen_list).length = seqlen_list.length := by
  have h := (sortedItems_perm seqlen_list).length_eq
  rwa [List.length_map, List.length_range] at h

/-- No length is above `D`, or with sets of one size: no two lengths differ by more than `D`. -/
def Spread (equal_size : Bool) (seqlen_list : List ℤ) (D : ℤ) : Prop :=
  if equal_size then ∀ x ∈ seqlen_list, ∀ y ∈ seqlen_list, x ≤ y + D else ∀ x ∈ seqlen_list, x ≤ D

theorem mapM_states {ρ : Type} (f : ρ → Except PyErr (State k)) (g : ρ → List (ℕ × ℤ))
    (equal_size : Bool) :
    ∀ (xs : List ρ), (∀ x ∈ xs, ∃ s, f x = .ok s ∧ s.Fair D equal_size ∧
      s.bundles.flatten.Perm (g x)) →
    ∃ pq, xs.mapM f = .ok pq ∧ pq.length = xs.length ∧ (∀ s ∈ pq, s.Fair D equal_size) ∧
      (itemsOf pq).Perm (xs.flatMap g)
  | [], _ => ⟨[], rfl, rfl, by simp, .nil⟩
  | x :: xs, h => by
    obtain ⟨⟨s, hs, hfair, hitems⟩, hxs⟩ := List.forall_mem_cons.mp h
    obtain ⟨pq, hpq, hlength, hall, hrest⟩ := mapM_states f g equal_size xs hxs
    refine ⟨s :: pq, ?_, by rw [List.length_cons, List.length_cons, hlength],
      List.forall_mem_cons.mpr ⟨hfair, hall⟩, hitems.append hrest⟩
    rw [List.mapM_cons, hs, hpq]
    rfl

theorem initialStates_fair {seqlen_list : List ℤ} {equal_size : Bool} (pos : 0 < k)
    (hle : k ≤ seqlen_list.length) (hdvd : equal_size = true → k ∣ seqlen_list.length)
    (hnonneg : ∀ x ∈ seqlen_list, 0 ≤ x) (hD : Spread equal_size seqlen_list D) :
    ∃ pq, initialStates seqlen_list k equal_size = .ok pq ∧ pq ≠ [] ∧
      (∀ s ∈ pq, s.Fair D equal_size) ∧ (itemsOf pq).Perm (sortedItems seqlen_list) := by
  have hlength := length_sortedItems seqlen_list
  have hmem {item : ℕ × ℤ} (h : item ∈ sortedItems seqlen_list) : item.2 ∈ seqlen_list :=
    List.mem_of_getElem? (mem_sortedItems h)
  cases equal_size with
  | false =>
    obtain ⟨pq, hpq, hcount, hfair, hitems⟩ := mapM_states (D := D)
      (fun item => State.new [item] k) (fun item => [item]) false (sortedItems seqlen_list)
        fun item h =>
        State.new_singleton_fair pos (hnonneg _ (hmem h)) (hD _ (hmem h))
    refine ⟨pq, hpq, List.ne_nil_of_length_pos (by omega), hfair, hitems.trans (.of_eq ?_)⟩
    exact List.flatMap_singleton' _
  | true =>
    obtain ⟨m, hm⟩ := hdvd rfl
    have hjoin : (Chunks.chunks k (sortedItems seqlen_list)).flatten = sortedItems seqlen_list :=
      Chunks.flatten_chunks pos (n := m) (by rw [hlength, hm, Nat.mul_comm])
    obtain ⟨pq, hpq, hcount, hfair, hitems⟩ := mapM_states (D := D)
      (fun items => State.new items k) id true (Chunks.chunks k (sortedItems seqlen_list))
        fun items h => by
        have hsub {item : ℕ × ℤ} (hitem : item ∈ items) : item.2 ∈ seqlen_list :=
          hmem (hjoin ▸ List.mem_flatten.mpr ⟨items, h, hitem⟩)
        exact State.new_fair (Chunks.length_of_mem_chunks h) pos
          (fun item hitem => hnonneg _ (hsub hitem))
          fun item hitem other hother => hD _ (hsub hitem) _ (hsub hother)
    refine ⟨pq, ?_, List.ne_nil_of_length_pos ?_, hfair, hitems.trans (.of_eq ?_)⟩
    · rw [initialStates, if_pos rfl, if_neg pos.ne', if_pos (by rw [hm, Nat.mul_mod_right])]
      exact hpq
    · rw [hcount, Chunks.length_chunks, hlength]
      exact Nat.div_pos hle pos
    · rw [List.flatMap_id, hjoin]

end Initial

/-! ### Results -/

section Results

open Differencing

variable {seqlen_list : List ℤ} {equal_size : Bool} {parts : List (List ℕ)}

/-- The length of a row. -/
def lengthOf (seqlen_list : List ℤ) (i : ℕ) : ℤ := seqlen_list.getD i 0

/-- **What balanced partitions are**: each row is in one of `k` partitions, none of which is empty,
and with `equal_size` they have the same number of rows. The lengths in two partitions differ by one
length at most, or with `equal_size` by the largest difference of two lengths. The heaviest
partition is at most twice as heavy as the heaviest one of any other distribution. -/
structure Balanced (seqlen_list : List ℤ) (k : ℕ) (equal_size : Bool)
    (parts : List (List ℕ)) : Prop where
  length : parts.length = k
  rows : parts.flatten.Perm (List.range seqlen_list.length)
  increasing : ∀ part ∈ parts, part ≠ [] ∧ part.Pairwise (· < ·)
  sized : equal_size = true → ∀ part ∈ parts, part.length * k = seqlen_list.length
  close : ∀ D, Spread equal_size seqlen_list D → Within (lengthOf seqlen_list) D parts
  heaviest : ∀ other : List (List ℕ), other.length = k →
    other.flatten.Perm (List.range seqlen_list.length) → ∃ y ∈ other, ∀ x ∈ parts,
      weigh (lengthOf seqlen_list) x ≤ 2 * weigh (lengthOf seqlen_list) y

/-- What is known of the partitions before they are sorted. -/
theorem karmarkarKarp_ok {D : ℤ} (pos : 0 < k) (hle : k ≤ seqlen_list.length)
    (hdvd : equal_size = true → k ∣ seqlen_list.length) (hnonneg : ∀ x ∈ seqlen_list, 0 ≤ x)
    (hD : Spread equal_size seqlen_list D) :
    ∃ parts, karmarkarKarp seqlen_list k equal_size = .ok parts ∧ parts.length = k ∧
      parts.flatten.Perm (List.range seqlen_list.length) ∧ (∀ part ∈ parts, part ≠ []) ∧
      (equal_size = true → ∀ part ∈ parts, part.length * k = seqlen_list.length) ∧
      Within (lengthOf seqlen_list) D parts := by
  obtain ⟨pq, hpq, hne, hfair, hitems⟩ := initialStates_fair pos hle hdvd hnonneg hD
  obtain ⟨s, hs, hlast, hperm⟩ := mergeStates_fair hne (Nat.le_succ _) hfair
  have hsorted := hperm.trans hitems
  have hparts : s.getPartitions = s.bundles.map (List.map Prod.fst) := by
    rw [State.getPartitions, State.bundles, List.map_map]
    rfl
  have hcount : s.bundles.flatten.length = seqlen_list.length := by
    rw [hsorted.length_eq, length_sortedItems]
  have hrows : s.getPartitions.flatten.Perm (List.range seqlen_list.length) := by
    rw [hparts, ← List.map_flatten]
    exact (hsorted.map _).trans (sortedItems_perm _)
  have hlength : s.getPartitions.length = k := by rw [hparts, List.length_map, s.length_bundles]
  have hfilled : ∀ part ∈ s.getPartitions, part ≠ [] := by
    intro part hpart
    rw [hparts] at hpart
    obtain ⟨x, hx, rfl⟩ := List.mem_map.mp hpart
    have hfull : s.bundles.length ≤ filled s.bundles := by
      have := hlast.filled
      rw [s.length_bundles]
      omega
    rw [ne_eq, List.map_eq_nil_iff]
    exact ne_nil_of_filled hfull x hx
  have hsized : equal_size = true →
      ∀ part ∈ s.getPartitions, part.length * k = seqlen_list.length := by
    intro hequal part hpart
    obtain ⟨m, hm⟩ := hlast.sized hequal
    have htotal : s.bundles.flatten.length = k * m := by
      rw [List.length_flatten, List.eq_replicate_of_mem (l := s.bundles.map List.length) (a := m) fun n hn => by
        obtain ⟨x, hx, rfl⟩ := List.mem_map.mp hn
        exact hm x hx]
      rw [List.sum_replicate, List.length_map, s.length_bundles, Nat.nsmul_eq_mul]
    rw [hparts] at hpart
    obtain ⟨x, hx, rfl⟩ := List.mem_map.mp hpart
    rw [List.length_map, hm x hx, Nat.mul_comm, ← htotal, hcount]
  have hweigh : ∀ x ∈ s.bundles, weigh (lengthOf seqlen_list) (x.map Prod.fst) =
      weigh Prod.snd x := by
    intro x hx
    rw [weigh, weigh, List.map_map]
    refine congrArg List.sum (List.map_congr_left fun item hitem => ?_)
    have hget := mem_sortedItems (hsorted.mem_iff.mp (List.mem_flatten.mpr ⟨x, hx, hitem⟩))
    show seqlen_list.getD item.1 0 = item.2
    rw [List.getD_eq_getElem?_getD, hget, Option.getD_some]
  refine ⟨s.getPartitions, ?_, hlength, hrows, hfilled, hsized, ?_⟩
  · rw [karmarkarKarp, hpq, ok_bind, hs]
    show (match equal_size, s.getPartitions.find? _ with | true, some part => _ | _, _ => _) = _
    cases equal_size with
    | false => rfl
    | true =>
      rw [List.find?_eq_none.mpr fun part hpart => by simpa using hsized rfl part hpart]
  · rw [hparts]
    intro part hpart other hother
    obtain ⟨x, hx, rfl⟩ := List.mem_map.mp hpart
    obtain ⟨y, hy, rfl⟩ := List.mem_map.mp hother
    rw [hweigh x hx, hweigh y hy]
    exact hlast.within x hx y hy

theorem checkAndSortPartitions_ok (hlength : parts.length = k) (hne : ∀ part ∈ parts, part ≠ [])
    (hrows : parts.flatten.Perm (List.range seqlen_list.length)) :
    checkAndSortPartitions seqlen_list k parts =
      .ok (parts.map fun part => part.insertionSort (· ≤ ·)) := by
  have hempty : ¬parts.any List.isEmpty = true := by
    rw [List.any_eq_true]
    rintro ⟨part, hpart, hnil⟩
    exact hne part hpart (List.isEmpty_iff.mp hnil)
  rw [checkAndSortPartitions, if_neg (not_not.mpr hlength), if_neg hempty, if_pos]
  rw [Bool.and_eq_true, List.all_eq_true, List.all_eq_true]
  constructor
  · intro i hi
    exact decide_eq_true (List.mem_range.mp (hrows.mem_iff.mp hi))
  · intro i hi
    exact List.contains_iff_mem.mpr (hrows.mem_iff.mpr hi)

theorem sort_flatten_perm (parts : List (List ℕ)) :
    (parts.map fun part => part.insertionSort (· ≤ ·)).flatten.Perm parts.flatten := by
  induction parts with
  | nil => exact .nil
  | cons part parts ih => exact (List.perm_insertionSort _ _).append ih

theorem nodup_of_rows (hrows : parts.flatten.Perm (List.range seqlen_list.length)) :
    ∀ part ∈ parts, part.Nodup :=
  (List.nodup_flatten.mp (hrows.nodup_iff.mpr List.nodup_range)).1

/-- **Sorted partitions are increasing**, as no row is in a partition twice. -/
theorem sort_increasing {part : List ℕ} (h : part.Nodup) :
    (part.insertionSort (· ≤ ·)).Pairwise (· < ·) := by
  have hle : (part.insertionSort (· ≤ ·)).Pairwise (· ≤ ·) := List.pairwise_insertionSort _ part
  exact List.Pairwise.imp₂ (fun i j hij hne => lt_of_le_of_ne hij hne) hle
    ((List.perm_insertionSort _ _).nodup_iff.mpr h)

/-- The longest row. -/
theorem exists_longest (h : 0 < seqlen_list.length) :
    ∃ i < seqlen_list.length, ∀ x ∈ seqlen_list, x ≤ lengthOf seqlen_list i := by
  obtain ⟨i, hi, hmax⟩ := Finset.exists_max_image (Finset.range seqlen_list.length)
    (lengthOf seqlen_list)
    ⟨0, Finset.mem_range.mpr h⟩
  refine ⟨i, Finset.mem_range.mp hi, fun x hx => ?_⟩
  obtain ⟨j, hj, rfl⟩ := List.mem_iff_getElem.mp hx
  have hle := hmax j (Finset.mem_range.mpr hj)
  rwa [lengthOf, List.getD_eq_getElem?_getD, List.getElem?_eq_getElem hj] at hle

theorem lengthOf_nonneg (hnonneg : ∀ x ∈ seqlen_list, 0 ≤ x) (i : ℕ) :
    0 ≤ lengthOf seqlen_list i := by
  rw [lengthOf, List.getD_eq_getElem?_getD]
  rcases hget : seqlen_list[i]? with _ | x
  · exact le_rfl
  · exact hnonneg x (List.mem_of_getElem? hget)

theorem spread_of_le (equal_size : Bool) {D : ℤ} (hnonneg : ∀ x ∈ seqlen_list, 0 ≤ x)
    (h : ∀ x ∈ seqlen_list, x ≤ D) :
    Spread equal_size seqlen_list D := by
  rw [Spread]
  split
  · intro x hx y hy
    have hx' := h x hx
    have hy' := hnonneg y hy
    omega
  · exact h

theorem getSeqlenBalancedPartitions_balanced (equal_size : Bool) (pos : 0 < k)
    (hle : k ≤ seqlen_list.length)
    (hdvd : equal_size = true → k ∣ seqlen_list.length) (hnonneg : ∀ x ∈ seqlen_list, 0 ≤ x) :
    ∃ parts, getSeqlenBalancedPartitions seqlen_list k equal_size = .ok parts ∧
      Balanced seqlen_list k equal_size parts := by
  obtain ⟨i, hi, hmax⟩ := exists_longest (pos.trans_le hle)
  have hlongest := spread_of_le equal_size hnonneg hmax
  obtain ⟨parts, hparts, hlength, hrows, hfilled, hsized, -⟩ :=
    karmarkarKarp_ok pos hle hdvd hnonneg hlongest
  let sort : List ℕ → List ℕ := fun part => part.insertionSort (· ≤ ·)
  have hsort (part : List ℕ) : (sort part).Perm part := List.perm_insertionSort _ _
  have hsortedRows : (parts.map sort).flatten.Perm (List.range seqlen_list.length) :=
    (sort_flatten_perm parts).trans hrows
  have hclose : ∀ D, Spread equal_size seqlen_list D →
      Within (lengthOf seqlen_list) D (parts.map sort) := by
    intro D hD part hpart other hother
    obtain ⟨parts', hparts', -, -, -, -, hwithin⟩ := karmarkarKarp_ok pos hle hdvd hnonneg hD
    rw [hparts, Except.ok.injEq] at hparts'
    obtain ⟨x, hx, rfl⟩ := List.mem_map.mp hpart
    obtain ⟨y, hy, rfl⟩ := List.mem_map.mp hother
    rw [weigh_perm (hsort x), weigh_perm (hsort y)]
    exact hwithin x (hparts' ▸ hx) y (hparts' ▸ hy)
  refine ⟨parts.map sort, ?_, ?_⟩
  · rw [getSeqlenBalancedPartitions, if_neg (not_lt.mpr hle), hparts, ok_bind]
    exact checkAndSortPartitions_ok hlength hfilled hrows
  · constructor
    case length => rw [List.length_map, hlength]
    case rows => exact hsortedRows
    case increasing =>
      intro part hpart
      obtain ⟨x, hx, rfl⟩ := List.mem_map.mp hpart
      refine ⟨fun hnil => hfilled x hx ?_, sort_increasing (nodup_of_rows hrows x hx)⟩
      exact List.nil_perm.mp (hnil ▸ hsort x)
    case sized =>
      intro hequal part hpart
      obtain ⟨x, hx, rfl⟩ := List.mem_map.mp hpart
      rw [(hsort x).length_eq]
      exact hsized hequal x hx
    case close => exact hclose
    case heaviest =>
      intro other hother hperm
      obtain ⟨y, hy, hbound⟩ := weigh_le_two_mul (lengthOf_nonneg hnonneg) (hclose _ hlongest)
        (hsortedRows.mem_iff.mpr (List.mem_range.mpr hi))
          (hother.trans (by rw [List.length_map, hlength]))
        (hperm.trans hsortedRows.symm)
      refine ⟨y, hy, fun x hx => ?_⟩
      rw [two_mul]
      exact hbound x hx

theorem conditions_of_ok (h : getSeqlenBalancedPartitions seqlen_list k equal_size = .ok parts) :
    0 < k ∧ k ≤ seqlen_list.length ∧ (equal_size = true → k ∣ seqlen_list.length) := by
  rw [getSeqlenBalancedPartitions] at h
  split at h
  · cases h
  · next hle =>
    obtain ⟨parts', hparts', -⟩ := bind_eq_ok.mp h
    obtain ⟨pq, hpq, hrest⟩ := bind_eq_ok.mp hparts'
    obtain ⟨final_state, hfinal, -⟩ := bind_eq_ok.mp hrest
    refine ⟨final_state.pos, not_lt.mp hle, fun hequal => ?_⟩
    rw [initialStates, if_pos hequal] at hpq
    split at hpq
    · cases hpq
    · split at hpq
      · next hmod => exact Nat.dvd_of_mod_eq_zero hmod
      · cases hpq

/-- Whatever is returned is balanced. -/
theorem balanced_of_ok (hnonneg : ∀ x ∈ seqlen_list, 0 ≤ x)
    (h : getSeqlenBalancedPartitions seqlen_list k equal_size = .ok parts) :
    Balanced seqlen_list k equal_size parts := by
  obtain ⟨pos, hle, hdvd⟩ := conditions_of_ok h
  obtain ⟨parts', hparts', hbalanced⟩ :=
    getSeqlenBalancedPartitions_balanced equal_size pos hle hdvd hnonneg
  rw [h, Except.ok.injEq] at hparts'
  exact hparts' ▸ hbalanced

/-- **Balanced partitions are returned** exactly if there is a partition, no more partitions than
rows, and with `equal_size` a number of rows that the partitions can share. -/
theorem getSeqlenBalancedPartitions_iff (seqlen_list : List ℤ) (k : ℕ) (equal_size : Bool)
    (hnonneg : ∀ x ∈ seqlen_list, 0 ≤ x) :
    (∃ parts, getSeqlenBalancedPartitions seqlen_list k equal_size = .ok parts ∧
      Balanced seqlen_list k equal_size parts) ↔
    0 < k ∧ k ≤ seqlen_list.length ∧ (equal_size = true → k ∣ seqlen_list.length) := by
  constructor
  · rintro ⟨parts, h, -⟩
    exact conditions_of_ok h
  · rintro ⟨pos, hle, hdvd⟩
    exact getSeqlenBalancedPartitions_balanced equal_size pos hle hdvd hnonneg

/-- Three rows in two partitions, which cannot be of one size. -/
theorem getSeqlenBalancedPartitions_iff_sample :
    (∃ parts, getSeqlenBalancedPartitions [5, 0, 3] 2 false = .ok parts ∧
      Balanced [5, 0, 3] 2 false parts) ∧
    ¬∃ parts, getSeqlenBalancedPartitions [5, 0, 3] 2 true = .ok parts ∧
      Balanced [5, 0, 3] 2 true parts := by
  refine ⟨(getSeqlenBalancedPartitions_iff [5, 0, 3] 2 false (by decide)).mpr (by decide),
    fun h => ?_⟩
  exact absurd ((getSeqlenBalancedPartitions_iff [5, 0, 3] 2 true (by decide)).mp h) (by decide)

end Results

end SeqlenBalancing

end ToolAgent
