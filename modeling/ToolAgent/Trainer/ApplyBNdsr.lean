import ToolAgent.Library.Selection
import ToolAgent.Trainer.RolloutPlan
import ToolAgent.Training.Jass

/-!
# The budgeted batch

`_apply_b_ndsr` of `verl.trainer.ppo.ray_trainer` cuts a finished batch down to its budget. Each uid
gets the plan of `plan_b_ndsr`, and as many of its first rows stay as the plan says.

## Number and position

The plan goes by the labels of the whole group, and the cut goes by position only. So a group that
counts as mixed can lose all of its successes: they come after the cut. `_generate_b_ndsr_batch`,
which draws the rollouts of a group one after another, would not have stopped there.

## Main definitions

* `applyBNdsr` — the function
* `KeepsSignal` — what the batch should keep
* `Budgeted` — which batches lose none of it

## Main results

* `applyBNdsr_groups` — the batch that is returned, group by group
* `applyBNdsr_keepsSignal_iff` — when it keeps the signal
-/

namespace ToolAgent

namespace ApplyBNdsr

open Python Grouping Selection Rounds Jass

variable {α : Type}

/-! ### Batches -/

/-- The columns of a row that `_apply_b_ndsr` reads. -/
structure ScoredRow (α : Type) where
  uid : α
  token_level_scores : List ℚ
  b_ndsr_trace : PyVal

/-- `token_level_scores.sum(-1)` -/
def ScoredRow.score (r : ScoredRow α) : ℚ := r.token_level_scores.sum

/-- The label of the row in its plan. -/
def ScoredRow.succeeds (r : ScoredRow α) : Bool := decide (1 / 2 ≤ r.score)

/-- The flags say whether the batch has the two columns. -/
structure Batch (α : Type) where
  rows : List (ScoredRow α)
  has_uid : Bool
  has_b_ndsr_trace : Bool

def Batch.uids (batch : Batch α) : List α :=
  if batch.has_uid then batch.rows.map ScoredRow.uid else []

def Batch.traces (batch : Batch α) : List PyVal :=
  if batch.has_b_ndsr_trace then batch.rows.map ScoredRow.b_ndsr_trace else []

/-- Selection of rows. -/
def Batch.slice (batch : Batch α) (indices : List ℕ) : Except PyErr (Batch α) := do
  let rows ← indices.mapM (item batch.rows)
  .ok { batch with rows := rows }

/-! ### Checkpoint metrics -/

/-- What `jass_metrics` depends on apart from the traces. -/
structure JassEnv where
  py : Interp
  config : JASSConfig
  /-- The flag `JASS_ENABLED`. -/
  enabled : Bool
  /-- Whether the selection can be imported. -/
  available : Bool
  /-- The endpoint, asked about the `k`-th trace. -/
  judge : ℕ → Prompt → Except PyErr PyStr

/-- `jass_metrics` -/
def jassMetrics (env : JassEnv) (traces : List PyVal) : Except PyErr (List (PyStr × PyFloat)) :=
  if !env.enabled then .ok []
  else if !env.available then .ok [("jass/enabled", .fin 0)]
  else do
    let found ← traces.zipIdx.mapM fun (trace, k) =>
      if trace.truthy then
        (selectCheckpoint env.py env.config env.enabled (env.judge k) [trace]).map Option.isSome
      else .ok false
    .ok [("jass/enabled", .fin 1), ("jass/selected_checkpoints", .fin (found.countP id : ℕ))]

/-! ### The cut -/

/-- The plan of a uid, and the indices that it leaves. -/
def planGroup [DecidableEq α] (config : RootConfig) (uids : List α) (scores : List ℚ) (uid : α) :
    Except PyErr (BNDSPPlan × List ℕ) := do
  let group := indicesOf uids uid
  let plan := planBNdsr config (← group.mapM (item scores))
  .ok (plan, sliceTo group plan.selected_rollouts)

/-- What is added to the metrics. -/
structure StepMetrics where
  b_ndsr : BNdsrMetrics
  jass : List (PyStr × PyFloat)

/-- `_apply_b_ndsr`. `enabled` is the flag `B_NDSR_ENABLED`. -/
def applyBNdsr [DecidableEq α] (env : JassEnv) (config : RootConfig) (enabled : Bool)
    (batch : Batch α) :
    Except PyErr (Batch α × Option StepMetrics) :=
  if !enabled then .ok (batch, none)
  else do
    let uids := batch.uids
    let scores := batch.rows.map ScoredRow.score
    let planned ← (fromKeys uids).mapM (planGroup config uids scores)
    let keep := planned.flatMap Prod.snd
    let jass ← jassMetrics env batch.traces
    let metrics : StepMetrics := ⟨bNdsrMetrics (planned.map Prod.fst), jass⟩
    if keep.isEmpty || keep.length == uids.length then .ok (batch, some metrics)
    else
      let out ← batch.slice (keep.insertionSort (· ≤ ·))
      .ok (out, some metrics)

/-! ### What the batch should keep -/

/-- A success and a failure. -/
def Mixed (rows : List (ScoredRow α)) : Prop :=
  (∃ r ∈ rows, r.succeeds = true) ∧ ∃ r ∈ rows, r.succeeds = false

/-- The new batch keeps the order, a row of every uid, and both labels of a mixed group that still
has two rows. -/
structure KeepsSignal [DecidableEq α] (rows out : List (ScoredRow α)) : Prop where
  sublist : out.Sublist rows
  every_uid : ∀ r ∈ rows, group ScoredRow.uid r.uid out ≠ []
  both_labels : ∀ u, Mixed (group ScoredRow.uid u rows) →
    2 ≤ (group ScoredRow.uid u out).length → Mixed (group ScoredRow.uid u out)

/-! ### What the budget leaves -/

/-- The length of `xs[:count]`. -/
def prefixLength (count : ℤ) (length : ℕ) : ℕ :=
  if 0 ≤ count then min count.toNat length else length - (-count).toNat

/-- The number of rows before the first one with another label than the first row. -/
def leadingRun : List (ScoredRow α) → ℕ
  | [] => 0
  | r :: rows => ((r :: rows).takeWhile fun r' => r'.succeeds == r.succeeds).length

/-- A group with a failure of which the maximum leaves nothing. -/
def Dropped (config : RootConfig) (rows : List (ScoredRow α)) : Prop :=
  (∃ r ∈ rows, r.succeeds = false) ∧ prefixLength config.maximum rows.length = 0

/-- If the group is mixed and at least two of its rows are left, its label changes among these. -/
def ChangesInTime (config : RootConfig) (rows : List (ScoredRow α)) : Prop :=
  let left := prefixLength (min config.maximum (config.minimum + config.increment)) rows.length
  Mixed rows → 2 ≤ left → leadingRun rows < left

/-- Either all groups are dropped, and then the batch is returned as it is, or none is. -/
def Budgeted [DecidableEq α] (config : RootConfig) (rows : List (ScoredRow α)) : Prop :=
  (∀ r ∈ rows, Dropped config (group ScoredRow.uid r.uid rows)) ∨
    ∀ r ∈ rows, ¬Dropped config (group ScoredRow.uid r.uid rows) ∧
      ChangesInTime config (group ScoredRow.uid r.uid rows)

/-! ### Labels -/

section Labels

variable {rows : List (ScoredRow α)} {r : ScoredRow α} {config : RootConfig} {m : ℕ}

theorem exists_mem_take_iff {β : Type} {p : β → Bool} {xs : List β} :
    ∀ {m : ℕ}, (∃ x ∈ xs, p x = false) →
      ((∃ x ∈ xs.take m, p x = false) ↔ (xs.takeWhile p).length < m) := by
  induction xs with
  | nil => simp
  | cons x xs ih =>
    intro m h
    rcases m with - | m
    · simp
    · cases hx : p x with
      | false => simp [hx]
      | true =>
        have hxs : ∃ x ∈ xs, p x = false := by simpa [hx] using h
        rw [List.takeWhile_cons_of_pos hx, List.length_cons, Nat.add_lt_add_iff_right, ← ih hxs]
        simp [hx]

/-- A group is mixed if some row has another label than the first. -/
theorem mixed_cons_iff :
    Mixed (r :: rows) ↔ ∃ r' ∈ r :: rows, (r'.succeeds == r.succeeds) = false := by
  rw [Mixed]
  cases hr : r.succeeds with
  | true =>
    refine (and_iff_right ⟨r, List.mem_cons_self, hr⟩).trans (exists_congr fun r' => ?_)
    rw [beq_true]
  | false =>
    refine (and_iff_left ⟨r, List.mem_cons_self, hr⟩).trans (exists_congr fun r' => ?_)
    rw [beq_false, Bool.not_eq_eq_eq_not, Bool.not_false]

theorem mixed_take_iff (hmixed : Mixed rows) (hm : m ≠ 0) :
    Mixed (rows.take m) ↔ leadingRun rows < m := by
  rcases rows with - | ⟨r, rows⟩
  · obtain ⟨⟨r, hr, -⟩, -⟩ := hmixed
    cases hr
  obtain ⟨m, rfl⟩ := Nat.exists_eq_succ_of_ne_zero hm
  rw [List.take_succ_cons, mixed_cons_iff, ← List.take_succ_cons, leadingRun]
  exact exists_mem_take_iff (mixed_cons_iff.mp hmixed)

/-- The number of rows planned for a group, by its labels. -/
theorem planned_eq (hrows : rows ≠ []) :
    (planBNdsr config (rows.map ScoredRow.score)).selected_rollouts =
      if ∀ r ∈ rows, r.succeeds = true then config.minimum
      else if ∃ r ∈ rows, r.succeeds = true then
        min config.maximum (config.minimum + config.increment)
      else config.maximum := by
  have hlabels : (rows.map ScoredRow.score).map (fun x => decide (1 / 2 ≤ x)) =
      rows.map ScoredRow.succeeds := List.map_map ..
  have hall : (rows.map ScoredRow.succeeds ≠ [] ∧ (rows.map ScoredRow.succeeds).all id = true) ↔
      ∀ r ∈ rows, r.succeeds = true := by
    simp [hrows]
  have htwo : (true ∈ rows.map ScoredRow.succeeds ∧ false ∈ rows.map ScoredRow.succeeds) ↔
      (∃ r ∈ rows, r.succeeds = true) ∧ ∃ r ∈ rows, r.succeeds = false := by
    simp
  have hplan : (planBNdsr config (rows.map ScoredRow.score)).selected_rollouts =
      (planCount config (rows.map ScoredRow.succeeds)).1 := by
    rw [planBNdsr, hlabels]
  rw [hplan, planCount]
  simp only [one_lt_card_iff, hall, htwo]
  by_cases hsucc : ∀ r ∈ rows, r.succeeds = true
  · rw [if_pos hsucc, if_pos hsucc]
  · have hfail : ∃ r ∈ rows, r.succeeds = false := by simpa using hsucc
    rw [if_neg hsucc, if_neg hsucc]
    simp only [hfail, and_true]
    split <;> rfl

theorem length_sliceTo {β : Type} (xs : List β) (count : ℤ) :
    (sliceTo xs count).length = prefixLength count xs.length := by
  rw [sliceTo, prefixLength]
  split
  · exact List.length_take
  · rw [List.length_take]
    omega

theorem sliceTo_eq_take {β : Type} (xs : List β) (count : ℤ) :
    sliceTo xs count = xs.take (prefixLength count xs.length) := by
  rw [sliceTo, prefixLength]
  split
  · rw [List.take_eq_take_iff]
    omega
  · rfl

end Labels

/-! ### What a plan leaves of a group -/

/-- The rows of a group that its plan leaves. -/
def plannedRows (config : RootConfig) (rows : List (ScoredRow α)) : List (ScoredRow α) :=
  sliceTo rows (planBNdsr config (rows.map ScoredRow.score)).selected_rollouts

section Planned

variable {rows : List (ScoredRow α)} {config : RootConfig}

theorem length_plannedRows_of_mixed (hmixed : Mixed rows) : (plannedRows config rows).length =
    prefixLength (min config.maximum (config.minimum + config.increment)) rows.length := by
  obtain ⟨hsucc, r, hr, hfail⟩ := hmixed
  have hnot : ¬∀ r ∈ rows, r.succeeds = true := fun h => by simp [h r hr] at hfail
  rw [plannedRows, length_sliceTo, planned_eq (List.ne_nil_of_mem hr), if_neg hnot, if_pos hsucc]

/-- A plan leaves nothing of a group exactly when it drops it. -/
theorem plannedRows_eq_nil_iff (hmin : 1 ≤ config.minimum) (hinc : 0 ≤ config.increment)
    (hrows : rows ≠ []) : plannedRows config rows = [] ↔ Dropped config rows := by
  have hpos := List.length_pos_iff.mpr hrows
  rw [← List.length_eq_zero_iff, plannedRows, length_sliceTo, planned_eq hrows, Dropped]
  by_cases hall : ∀ r ∈ rows, r.succeeds = true
  · have hno : ¬∃ r ∈ rows, r.succeeds = false := by simpa using hall
    rw [if_pos hall, iff_false_right (fun h => hno h.1), prefixLength, if_pos (by omega)]
    omega
  · have hfail : ∃ r ∈ rows, r.succeeds = false := by simpa using hall
    rw [if_neg hall, and_iff_right hfail]
    split
    · rw [prefixLength, prefixLength]
      split <;> split <;> omega
    · rfl

/-- What is left of a mixed group is mixed when the label changes before the cut. -/
theorem mixed_plannedRows_iff (hmixed : Mixed rows) (hne : plannedRows config rows ≠ []) :
    Mixed (plannedRows config rows) ↔ leadingRun rows <
      prefixLength (min config.maximum (config.minimum + config.increment)) rows.length := by
  rw [← length_plannedRows_of_mixed hmixed]
  have hlen := mt List.length_eq_zero_iff.mp hne
  have htake : plannedRows config rows = rows.take (plannedRows config rows).length := by
    rw [plannedRows, length_sliceTo, ← sliceTo_eq_take]
  exact (iff_of_eq (congrArg Mixed htake)).trans (mixed_take_iff hmixed hlen)

end Planned

/-! ### The batch that is returned -/

section Run

variable [DecidableEq α] {env : JassEnv} {config : RootConfig} {batch : Batch α}

/-- The indices that the plan of `u` leaves. -/
def plannedIndices (config : RootConfig) (rows : List (ScoredRow α)) (u : α) : List ℕ :=
  sliceTo (indicesOf (rows.map ScoredRow.uid) u)
    (planBNdsr config ((group ScoredRow.uid u rows).map ScoredRow.score)).selected_rollouts

theorem parts_plannedIndices (config : RootConfig) (rows : List (ScoredRow α)) :
    Parts (rows.map ScoredRow.uid) (plannedIndices config rows) := fun u => by
  rw [plannedIndices, sliceTo_eq_take]
  exact List.take_sublist _ _

/-- The rows at these indices. -/
theorem plannedIndices_map (config : RootConfig) (rows : List (ScoredRow α)) (u : α) :
    (plannedIndices config rows u).map (fun i => rows[i]?) =
      (plannedRows config (group ScoredRow.uid u rows)).map some := by
  rw [plannedIndices, plannedRows, sliceTo_map, sliceTo_map, indicesOf_map_getElem?]

theorem planGroup_eq_ok (config : RootConfig) (rows : List (ScoredRow α)) (u : α) :
    planGroup config (rows.map ScoredRow.uid) (rows.map ScoredRow.score) u =
      .ok (planBNdsr config ((group ScoredRow.uid u rows).map ScoredRow.score),
        plannedIndices config rows u) := by
  have hscores : (indicesOf (rows.map ScoredRow.uid) u).mapM (item (rows.map ScoredRow.score)) =
      .ok ((group ScoredRow.uid u rows).map ScoredRow.score) := by
    rw [mapM_eq_ok_iff]
    have hrows := congrArg (List.map (Option.map ScoredRow.score))
      (indicesOf_map_getElem? ScoredRow.uid rows u)
    rw [List.map_map, List.map_map] at hrows
    rw [List.map_map]
    refine Eq.trans (List.map_congr_left fun i _ => ?_) hrows
    rw [toOption_item, List.getElem?_map]
    rfl
  rw [planGroup, hscores]
  rfl

theorem keep_eq_nil_iff {rows : List (ScoredRow α)} :
    kept (rows.map ScoredRow.uid) (plannedIndices config rows) = [] ↔
      ∀ u, plannedRows config (group ScoredRow.uid u rows) = [] := by
  have hpart : ∀ u, plannedIndices config rows u = [] ↔
      plannedRows config (group ScoredRow.uid u rows) = [] := by
    intro u
    rw [← List.map_eq_nil_iff (f := fun i => rows[i]?), plannedIndices_map, List.map_eq_nil_iff]
  rw [List.eq_nil_iff_forall_not_mem]
  simp only [mem_kept (parts_plannedIndices config rows), ← hpart, List.eq_nil_iff_forall_not_mem]
  constructor
  · intro h u i hi
    exact h i ⟨u, mem_indicesOf.mp ((parts_plannedIndices config rows u).subset hi), hi⟩
  · rintro h i ⟨u, -, hi⟩
    exact h u i hi

/-- A run on a batch with uids, up to the cut. -/
theorem applyBNdsr_of_uid (config : RootConfig) {jass : List (PyStr × PyFloat)}
    (hjass : jassMetrics env batch.traces = .ok jass) (huid : batch.has_uid = true) :
    ∃ metrics, applyBNdsr env config true batch =
      let keep := kept (batch.rows.map ScoredRow.uid) (plannedIndices config batch.rows)
      if keep.isEmpty || keep.length == batch.rows.length then .ok (batch, metrics)
      else (batch.slice (keep.insertionSort (· ≤ ·))).map fun out => (out, metrics) := by
  have huids : batch.uids = batch.rows.map ScoredRow.uid := by rw [Batch.uids, huid, if_pos rfl]
  have hplanned : (fromKeys (batch.rows.map ScoredRow.uid)).mapM
      (planGroup config (batch.rows.map ScoredRow.uid) (batch.rows.map ScoredRow.score)) = _ :=
    mapM_eq_ok_map fun u _ => planGroup_eq_ok config batch.rows u
  let plans := (fromKeys (batch.rows.map ScoredRow.uid)).map fun u =>
    planBNdsr config ((group ScoredRow.uid u batch.rows).map ScoredRow.score)
  have hkept : ((fromKeys (batch.rows.map ScoredRow.uid)).map fun u =>
      (planBNdsr config ((group ScoredRow.uid u batch.rows).map ScoredRow.score),
        plannedIndices config batch.rows u)).flatMap Prod.snd =
      kept (batch.rows.map ScoredRow.uid) (plannedIndices config batch.rows) := List.flatMap_map ..
  refine ⟨some ⟨bNdsrMetrics plans, jass⟩, ?_⟩
  rw [applyBNdsr, huids]
  simp only [Bool.not_true, Bool.false_eq_true, if_false, hplanned, hjass, hkept,
    List.map_map, List.length_map, bind, Except.bind]
  split
  · rfl
  · cases batch.slice _ <;> rfl

/-- The metrics are made before the cut. -/
theorem exists_jass_of_applyBNdsr {r : Batch α × Option StepMetrics}
    (hrun : applyBNdsr env config true batch = .ok r) :
    ∃ jass, jassMetrics env batch.traces = .ok jass := by
  rw [applyBNdsr] at hrun
  obtain ⟨planned, -, hrun⟩ := bind_eq_ok.mp hrun
  obtain ⟨jass, hjass, -⟩ := bind_eq_ok.mp hrun
  exact ⟨jass, hjass⟩

/-- Nothing is cut where there are no uids, or where no plan leaves a row. -/
theorem applyBNdsr_whole (config : RootConfig) {jass : List (PyStr × PyFloat)}
    (hjass : jassMetrics env batch.traces = .ok jass) (hwhole : batch.has_uid = true →
      ∀ u, plannedRows config (group ScoredRow.uid u batch.rows) = []) :
    ∃ metrics, applyBNdsr env config true batch = .ok (batch, metrics) := by
  cases huid : batch.has_uid with
  | false =>
    refine ⟨some ⟨bNdsrMetrics [], jass⟩, ?_⟩
    rw [applyBNdsr, Batch.uids, huid]
    simp only [hjass, bind, Except.bind]
    rfl
  | true =>
    obtain ⟨metrics, hrun⟩ := applyBNdsr_of_uid config hjass huid
    rw [keep_eq_nil_iff.mpr (hwhole huid)] at hrun
    exact ⟨metrics, hrun⟩

/-- **The batch that is returned.** The rows stay in order, and of every group those stay that its
plan leaves. -/
theorem applyBNdsr_groups (config : RootConfig) {jass : List (PyStr × PyFloat)}
    (hjass : jassMetrics env batch.traces = .ok jass) (huid : batch.has_uid = true)
    (hkeep : ¬∀ u, plannedRows config (group ScoredRow.uid u batch.rows) = []) :
    ∃ out metrics, applyBNdsr env config true batch = .ok (out, metrics) ∧
      out.rows.Sublist batch.rows ∧ ∀ u, group ScoredRow.uid u out.rows =
        plannedRows config (group ScoredRow.uid u batch.rows) := by
  have hpart := parts_plannedIndices config batch.rows
  have hsub := kept_sublist_range hpart
  rw [List.length_map] at hsub
  obtain ⟨metrics, hrun⟩ := applyBNdsr_of_uid config hjass huid
  -- Cut or not, the rows are those at the sorted indices.
  have hrows : ∃ out, applyBNdsr env config true batch = .ok (out, metrics) ∧ out.rows.map some =
      ((kept (batch.rows.map ScoredRow.uid) (plannedIndices config batch.rows)).insertionSort
        (· ≤ ·)).map fun i => batch.rows[i]? := by
    rw [← keep_eq_nil_iff, ← List.isEmpty_iff, Bool.not_eq_true] at hkeep
    simp only [hkeep, Bool.false_or, beq_iff_eq] at hrun
    split at hrun
    · next hlen =>
      refine ⟨batch, hrun, ?_⟩
      rw [hsub.eq_of_length (by rw [List.length_insertionSort, hlen, List.length_range]),
        range_map_getElem?]
    · obtain ⟨rows, hrows, hmap⟩ := exists_mapM_item fun i hi => List.mem_range.mp (hsub.subset hi)
      refine ⟨{ batch with rows := rows }, ?_, hmap⟩
      rw [hrun, Batch.slice, hrows]
      rfl
  obtain ⟨out, hout, hmap⟩ := hrows
  refine ⟨out, metrics, hout, selected_sublist hpart hmap, fun u => ?_⟩
  have hgroup := group_selected hpart hmap u
  rw [plannedIndices_map] at hgroup
  exact (List.map_inj_right fun _ _ => Option.some.inj).mp hgroup

/-! ### When the signal is kept -/

theorem KeepsSignal.of_eq (rows : List (ScoredRow α)) : KeepsSignal rows rows where
  sublist := List.Sublist.refl _
  every_uid r hr := by
    refine List.ne_nil_of_mem (a := r) ?_
    rw [group, List.mem_filter]
    exact ⟨hr, by simp⟩
  both_labels _ hmixed _ := hmixed

/-- Where the groups are cut to their plans, the signal is kept as far as no group is dropped and
every label changes in time. -/
theorem keepsSignal_planned_iff (hmin : 1 ≤ config.minimum) (hinc : 0 ≤ config.increment)
    {rows out : List (ScoredRow α)} (hsub : out.Sublist rows)
    (hgroup : ∀ u, group ScoredRow.uid u out = plannedRows config (group ScoredRow.uid u rows)) :
    KeepsSignal rows out ↔ ∀ r ∈ rows, ¬Dropped config (group ScoredRow.uid r.uid rows) ∧
      ChangesInTime config (group ScoredRow.uid r.uid rows) := by
  have hne : ∀ r ∈ rows, group ScoredRow.uid r.uid rows ≠ [] := (KeepsSignal.of_eq rows).every_uid
  constructor
  · intro h r hr
    have hleft : plannedRows config (group ScoredRow.uid r.uid rows) ≠ [] := by
      rw [← hgroup]
      exact h.every_uid r hr
    refine ⟨mt (plannedRows_eq_nil_iff hmin hinc (hne r hr)).mpr hleft, fun hmixed htwo => ?_⟩
    rw [← mixed_plannedRows_iff hmixed hleft, ← hgroup]
    refine h.both_labels r.uid hmixed ?_
    rwa [hgroup, length_plannedRows_of_mixed hmixed]
  · intro h
    refine ⟨hsub, fun r hr => ?_, fun u hmixed htwo => ?_⟩
    · rw [hgroup]
      exact mt (plannedRows_eq_nil_iff hmin hinc (hne r hr)).mp (h r hr).1
    · rw [hgroup] at htwo ⊢
      -- A mixed group is not empty, so its uid is that of a row.
      obtain ⟨⟨r, hr, -⟩, -⟩ := id hmixed
      rw [group, List.mem_filter, decide_eq_true_eq] at hr
      obtain ⟨hr, rfl⟩ := hr
      have hleft : plannedRows config (group ScoredRow.uid r.uid rows) ≠ [] :=
        List.length_pos_iff.mp (by omega)
      refine (mixed_plannedRows_iff hmixed hleft).mpr ((h r hr).2 hmixed ?_)
      rwa [← length_plannedRows_of_mixed hmixed]

/-- No plan leaves a row exactly when every group is dropped. -/
theorem plannedRows_eq_nil_forall_iff (hmin : 1 ≤ config.minimum) (hinc : 0 ≤ config.increment)
    {rows : List (ScoredRow α)} : (∀ u, plannedRows config (group ScoredRow.uid u rows) = []) ↔
      ∀ r ∈ rows, Dropped config (group ScoredRow.uid r.uid rows) := by
  have hne : ∀ r ∈ rows, group ScoredRow.uid r.uid rows ≠ [] := (KeepsSignal.of_eq rows).every_uid
  constructor
  · exact fun h r hr => (plannedRows_eq_nil_iff hmin hinc (hne r hr)).mp (h r.uid)
  · intro h u
    rcases hgroup : group ScoredRow.uid u rows with - | ⟨r, rest⟩
    · rw [plannedRows, sliceTo_eq_take, List.take_nil]
    · have hmem : r ∈ group ScoredRow.uid u rows := by
        rw [hgroup]
        exact List.mem_cons_self
      rw [group, List.mem_filter, decide_eq_true_eq] at hmem
      obtain ⟨hr, rfl⟩ := hmem
      rw [← hgroup]
      exact (plannedRows_eq_nil_iff hmin hinc (hne r hr)).mpr (h r hr)

/-- **When the signal is kept.** With the function enabled and a batch of uids, every group must be
within its budget. -/
theorem applyBNdsr_keepsSignal_iff (env : JassEnv) {config : RootConfig}
    (hmin : 1 ≤ config.minimum) (hinc : 0 ≤ config.increment) (enabled : Bool) (batch : Batch α) :
    (∃ out metrics, applyBNdsr env config enabled batch = .ok (out, metrics) ∧
      KeepsSignal batch.rows out.rows) ↔
    (enabled = true → (∃ jass, jassMetrics env batch.traces = .ok jass) ∧
      (batch.has_uid = true → Budgeted config batch.rows)) := by
  cases enabled with
  | false =>
    exact iff_of_true ⟨batch, none, rfl, KeepsSignal.of_eq _⟩ fun h => Bool.noConfusion h
  | true =>
    rw [forall_prop_of_true rfl]
    by_cases hexists : ∃ jass, jassMetrics env batch.traces = .ok jass
    swap
    · refine iff_of_false ?_ fun h => hexists h.1
      rintro ⟨out, metrics, hrun, -⟩
      exact hexists (exists_jass_of_applyBNdsr hrun)
    rw [and_iff_right hexists]
    obtain ⟨jass, hjass⟩ := hexists
    by_cases hwhole : batch.has_uid = true →
        ∀ u, plannedRows config (group ScoredRow.uid u batch.rows) = []
    · obtain ⟨metrics, hrun⟩ := applyBNdsr_whole config hjass hwhole
      refine iff_of_true ⟨batch, metrics, hrun, KeepsSignal.of_eq _⟩ fun huid => .inl ?_
      exact (plannedRows_eq_nil_forall_iff hmin hinc).mp (hwhole huid)
    · obtain ⟨huid, hkeep⟩ := Classical.not_imp.mp hwhole
      obtain ⟨out, metrics, hrun, hsub, hgroup⟩ := applyBNdsr_groups config hjass huid hkeep
      rw [forall_prop_of_true huid, Budgeted,
        or_iff_right (mt (plannedRows_eq_nil_forall_iff hmin hinc).mpr hkeep),
        ← keepsSignal_planned_iff hmin hinc hsub hgroup]
      constructor
      · rintro ⟨out', metrics', hrun', h⟩
        rw [hrun, Except.ok.injEq, Prod.mk.injEq] at hrun'
        rwa [hrun'.1]
      · exact fun h => ⟨out, metrics, hrun, h⟩

end Run

/-! ### One group of eight -/

def sampleEnv : JassEnv where
  py := .silent
  config := {}
  enabled := false
  available := false
  judge _ _ := throw .urlError "connection refused"

/-- Rows of one uid with the given rewards. -/
def sampleBatch (rewards : List ℚ) : Batch ℕ :=
  { rows := rewards.map fun x => ⟨10, [x], .null⟩, has_uid := true, has_b_ndsr_trace := false }

theorem group_sampleBatch {rewards : List ℚ} {r : ScoredRow ℕ}
    (hr : r ∈ (sampleBatch rewards).rows) :
    group ScoredRow.uid r.uid (sampleBatch rewards).rows = (sampleBatch rewards).rows := by
  have huid : ∀ r' ∈ (sampleBatch rewards).rows, r'.uid = 10 := fun r' hr' => by
    obtain ⟨x, -, rfl⟩ := List.mem_map.mp hr'
    rfl
  rw [group, List.filter_eq_self]
  exact fun r' hr' => decide_eq_true ((huid r' hr').trans (huid r hr).symm)

/-- The success is among the six rows that are kept. -/
theorem applyBNdsr_keepsSignal_sample :
    (∃ out metrics, applyBNdsr sampleEnv {} true (sampleBatch [0, 1, 0, 0, 0, 0, 0, 0]) =
        .ok (out, metrics) ∧
      KeepsSignal (sampleBatch [0, 1, 0, 0, 0, 0, 0, 0]).rows out.rows) ∧
    (applyBNdsr sampleEnv {} true (sampleBatch [0, 1, 0, 0, 0, 0, 0, 0])).map
      (fun out => out.1.rows.map ScoredRow.succeeds) =
        .ok [false, true, false, false, false, false] := by
  refine ⟨(applyBNdsr_keepsSignal_iff sampleEnv (by decide) (by decide) true
    (sampleBatch [0, 1, 0, 0, 0, 0, 0, 0])).mpr fun _ => ⟨⟨_, rfl⟩, fun _ => .inr fun r hr => ?_⟩,
    by decide +kernel⟩
  rw [group_sampleBatch hr]
  exact ⟨fun h => absurd h.2 (by decide), fun _ _ => by decide +kernel⟩

/-- Six of eight rows are planned, and both successes come after them. -/
theorem applyBNdsr_drops_successes :
    ¬∃ out metrics, applyBNdsr sampleEnv {} true (sampleBatch [0, 0, 0, 0, 0, 0, 1, 1]) =
        .ok (out, metrics) ∧
      KeepsSignal (sampleBatch [0, 0, 0, 0, 0, 0, 1, 1]).rows out.rows := by
  rintro ⟨out, metrics, hrun, hkeeps⟩
  have hscores : (applyBNdsr sampleEnv {} true (sampleBatch [0, 0, 0, 0, 0, 0, 1, 1])).map
      (fun r => r.1.rows.map fun row => (row.uid, row.succeeds)) =
        .ok (List.replicate 6 (10, false)) := by
    decide +kernel
  rw [hrun] at hscores
  have hrows : out.rows.map (fun row => (row.uid, row.succeeds)) = List.replicate 6 (10, false) :=
    Except.ok.inj hscores
  have hrow : ∀ r ∈ out.rows, r.uid = 10 ∧ r.succeeds = false := by
    intro r hr
    have hmem : (r.uid, r.succeeds) ∈ List.replicate 6 ((10 : ℕ), false) :=
      hrows ▸ List.mem_map_of_mem hr
    simpa using List.eq_of_mem_replicate hmem
  have hgroup : group ScoredRow.uid 10 out.rows = out.rows := by
    rw [group, List.filter_eq_self]
    exact fun r hr => decide_eq_true (hrow r hr).1
  have hlen : out.rows.length = 6 := by
    simpa using congrArg List.length hrows
  have hmixed : Mixed (group ScoredRow.uid 10 (sampleBatch [0, 0, 0, 0, 0, 0, 1, 1]).rows) :=
    ⟨⟨⟨10, [1], .null⟩, by simp [sampleBatch, group], by decide +kernel⟩,
      ⟨10, [0], .null⟩, by simp [sampleBatch, group], by decide +kernel⟩
  obtain ⟨⟨r, hr, hsucc⟩, -⟩ := hkeeps.both_labels 10 hmixed (by rw [hgroup, hlen]; decide)
  rw [hgroup] at hr
  rw [(hrow r hr).2] at hsucc
  cases hsucc

end ApplyBNdsr

end ToolAgent
