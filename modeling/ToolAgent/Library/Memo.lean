import Mathlib.Data.List.Forall2

/-!
# Memo tables

Lists of inputs are evaluated with one table of earlier results. The table is indexed by a key of
the input, and nothing says that the key determines the result. Finding the key and evaluating the
input may both raise.

Inputs with the same key are given the same result, because an entry of the table is never changed.
So the table is transparent exactly when the key determines the result.

## Main definitions

* `step`, `run`, `runAll` — evaluations with a table
* `Determines` — the key determines the result

## Main results

* `runAll_lookup` — what is returned is what the table holds in the end
* `runAll_transparent_iff` — when the table is transparent
-/

namespace ToolAgent

namespace Memo

variable {α κ ν ε : Type} [BEq κ]

abbrev Table (κ ν : Type) := List (κ × ν)

section Run

variable (key : α → Except ε κ) (eval : α → Except ε ν)

/-- One evaluation, and the table after it. -/
def step (table : Table κ ν) (x : α) : Except ε (ν × Table κ ν) := do
  let k ← key x
  match table.lookup k with
  | some v => .ok (v, table)
  | none => do
    let v ← eval x
    .ok (v, (k, v) :: table)

def run (table : Table κ ν) : List α → Except ε (List ν × Table κ ν)
  | [] => .ok ([], table)
  | x :: xs => do
    let (v, table) ← step key eval table x
    let (vs, table) ← run table xs
    .ok (v :: vs, table)

/-- Several runs with one table. -/
def runAll (table : Table κ ν) : List (List α) → Except ε (List (List ν) × Table κ ν)
  | [] => .ok ([], table)
  | xs :: xss => do
    let (vs, table) ← run key eval table xs
    let (vss, table) ← runAll table xss
    .ok (vs :: vss, table)

/-- Two of the inputs `xs` that have the same key evaluate to the same. -/
def Determines (xs : List α) : Prop :=
  ∀ x ∈ xs, ∀ y ∈ xs, ∀ k, key x = .ok k → key y = .ok k → eval x = eval y

/-- The results of the inputs `xs` that have an entry are those of the table. -/
def Sound (xs : List α) (table : Table κ ν) : Prop :=
  ∀ k v, table.lookup k = some v → ∀ x ∈ xs, key x = .ok k → eval x = .ok v

end Run

/-- The table holds `v` for `x`. -/
def Holds (key : α → Except ε κ) (table : Table κ ν) (x : α) (v : ν) : Prop :=
  ∃ k, key x = .ok k ∧ table.lookup k = some v

/-- No entry is lost or changed. -/
def Extends (table table' : Table κ ν) : Prop :=
  ∀ k v, table.lookup k = some v → table'.lookup k = some v

variable {key : α → Except ε κ} {eval : α → Except ε ν} {all : List α} {table table' : Table κ ν}

/-! ### Inversion -/

theorem step_cases {x : α} {v : ν} (h : step key eval table x = .ok (v, table')) :
    ∃ k, key x = .ok k ∧ (table.lookup k = some v ∧ table' = table ∨
      table.lookup k = none ∧ eval x = .ok v ∧ table' = (k, v) :: table) := by
  rw [step] at h
  rcases hkey : key x with e | k
  · rw [hkey] at h
    cases h
  · rw [hkey] at h
    refine ⟨k, rfl, ?_⟩
    change (match table.lookup k with | some v => _ | none => _) = _ at h
    rcases hentry : table.lookup k with _ | w
    · rw [hentry] at h
      rcases heval : eval x with e | w
      · rw [heval] at h
        cases h
      · rw [heval] at h
        cases h
        exact .inr ⟨rfl, rfl, rfl⟩
    · rw [hentry] at h
      cases h
      exact .inl ⟨rfl, rfl⟩

theorem run_cons {x : α} {xs : List α} {vs : List ν}
    (h : run key eval table (x :: xs) = .ok (vs, table')) :
    ∃ v ws table₁, step key eval table x = .ok (v, table₁) ∧
      run key eval table₁ xs = .ok (ws, table') ∧ vs = v :: ws := by
  rw [run] at h
  rcases hstep : step key eval table x with e | ⟨v, table₁⟩
  · rw [hstep] at h
    cases h
  · rw [hstep] at h
    change (run key eval table₁ xs >>= _) = _ at h
    rcases hrun : run key eval table₁ xs with e | ⟨ws, table₂⟩
    · rw [hrun] at h
      cases h
    · rw [hrun] at h
      cases h
      exact ⟨v, ws, table₁, rfl, hrun, rfl⟩

theorem runAll_cons {xs : List α} {xss : List (List α)} {vss : List (List ν)}
    (h : runAll key eval table (xs :: xss) = .ok (vss, table')) :
    ∃ vs wss table₁, run key eval table xs = .ok (vs, table₁) ∧
      runAll key eval table₁ xss = .ok (wss, table') ∧ vss = vs :: wss := by
  rw [runAll] at h
  rcases hrun : run key eval table xs with e | ⟨vs, table₁⟩
  · rw [hrun] at h
    cases h
  · rw [hrun] at h
    change (runAll key eval table₁ xss >>= _) = _ at h
    rcases hall : runAll key eval table₁ xss with e | ⟨wss, table₂⟩
    · rw [hall] at h
      cases h
    · rw [hall] at h
      cases h
      exact ⟨vs, wss, table₁, rfl, hall, rfl⟩

/-! ### What is returned is in the table -/

theorem Extends.trans {table'' : Table κ ν} (h : Extends table table')
    (h' : Extends table' table'') :
    Extends table table'' := fun k v hk => h' k v (h k v hk)

theorem Holds.extend {x : α} {v : ν} (h : Holds key table x v) (hext : Extends table table') :
    Holds key table' x v := by
  obtain ⟨k, hkey, hlookup⟩ := h
  exact ⟨k, hkey, hext k v hlookup⟩

theorem sound_nil (all : List α) : Sound key eval all ([] : Table κ ν) := fun _ _ h => nomatch h

variable [LawfulBEq κ]

theorem step_lookup {x : α} {v : ν} (h : step key eval table x = .ok (v, table')) :
    Extends table table' ∧ Holds key table' x v := by
  obtain ⟨k, hkey, ⟨hentry, rfl⟩ | ⟨hentry, -, rfl⟩⟩ := step_cases h
  · exact ⟨fun _ _ h => h, k, hkey, hentry⟩
  · refine ⟨fun k' w hw => ?_, k, hkey, List.lookup_cons_self⟩
    have hne : k' ≠ k := by
      rintro rfl
      rw [hentry] at hw
      cases hw
    rw [List.lookup_cons, beq_false_of_ne hne]
    exact hw

theorem run_lookup {xs : List α} : ∀ {table : Table κ ν} {vs : List ν},
    run key eval table xs = .ok (vs, table') →
      Extends table table' ∧ List.Forall₂ (Holds key table') xs vs := by
  induction xs with
  | nil =>
    intro table vs h
    cases h
    exact ⟨fun _ _ h => h, .nil⟩
  | cons x xs ih =>
    intro table vs h
    obtain ⟨v, ws, table₁, hstep, hrun, rfl⟩ := run_cons h
    obtain ⟨hext, hv⟩ := step_lookup hstep
    obtain ⟨hext', hws⟩ := ih hrun
    exact ⟨hext.trans hext', .cons (hv.extend hext') hws⟩

/-- **What is returned is what the table holds in the end.** -/
theorem runAll_lookup {xss : List (List α)} : ∀ {table : Table κ ν} {vss : List (List ν)},
    runAll key eval table xss = .ok (vss, table') →
      Extends table table' ∧ List.Forall₂ (List.Forall₂ (Holds key table')) xss vss := by
  induction xss with
  | nil =>
    intro table vss h
    cases h
    exact ⟨fun _ _ h => h, .nil⟩
  | cons xs xss ih =>
    intro table vss h
    obtain ⟨vs, wss, table₁, hrun, hall, rfl⟩ := runAll_cons h
    obtain ⟨hext, hvs⟩ := run_lookup hrun
    obtain ⟨hext', hwss⟩ := ih hall
    exact ⟨hext.trans hext', .cons (hvs.imp fun _ _ hv => hv.extend hext') hwss⟩

/-- Two relations between the same lists meet at every element. -/
theorem exists_of_forall₂ {β γ : Type} {R S : β → γ → Prop} {xs : List β} {ys : List γ}
    (hR : List.Forall₂ R xs ys) (hS : List.Forall₂ S xs ys) : ∀ x ∈ xs, ∃ y, R x y ∧ S x y := by
  induction hR with
  | nil => exact fun x hx => nomatch hx
  | cons hr _ ih =>
    obtain - | ⟨hs, hS⟩ := hS
    exact List.forall_mem_cons.mpr ⟨⟨_, hr, hs⟩, ih hS⟩

theorem runAll_holds {xss : List (List α)} {vss : List (List ν)}
    (h : runAll key eval table xss = .ok (vss, table')) :
    ∀ x ∈ xss.flatten, ∃ v, Holds key table' x v := by
  intro x hx
  obtain ⟨xs, hxs, hx⟩ := List.mem_flatten.mp hx
  obtain ⟨vs, hvs, -⟩ := exists_of_forall₂ (runAll_lookup h).2 (runAll_lookup h).2 xs hxs
  obtain ⟨v, hv, -⟩ := exists_of_forall₂ hvs hvs x hx
  exact ⟨v, hv⟩

/-! ### Sound tables -/

theorem step_sound (hdet : Determines key eval all) (hsound : Sound key eval all table) {x : α}
    {v : ν} (hx : x ∈ all) (h : step key eval table x = .ok (v, table')) :
    eval x = .ok v ∧ Sound key eval all table' := by
  obtain ⟨k, hkey, ⟨hentry, rfl⟩ | ⟨hentry, heval, rfl⟩⟩ := step_cases h
  · exact ⟨hsound k v hentry x hx hkey, hsound⟩
  · refine ⟨heval, fun k' w hlookup y hy hkey' => ?_⟩
    by_cases hk : k' = k
    · subst hk
      rw [List.lookup_cons_self, Option.some.injEq] at hlookup
      rw [hdet y hy x hx k' hkey' hkey, heval, hlookup]
    · rw [List.lookup_cons, beq_false_of_ne hk] at hlookup
      exact hsound k' w hlookup y hy hkey'

theorem run_sound (hdet : Determines key eval all) {xs : List α} :
    ∀ {table : Table κ ν} {vs : List ν}, Sound key eval all table → (∀ x ∈ xs, x ∈ all) →
      run key eval table xs = .ok (vs, table') →
      List.Forall₂ (fun x v => eval x = .ok v) xs vs ∧ Sound key eval all table' := by
  induction xs with
  | nil =>
    intro table vs hsound _ h
    cases h
    exact ⟨.nil, hsound⟩
  | cons x xs ih =>
    intro table vs hsound hall h
    obtain ⟨hx, hxs⟩ := List.forall_mem_cons.mp hall
    obtain ⟨v, ws, table₁, hstep, hrun, rfl⟩ := run_cons h
    obtain ⟨hv, hsound₁⟩ := step_sound hdet hsound hx hstep
    obtain ⟨hws, hsound'⟩ := ih hsound₁ hxs hrun
    exact ⟨.cons hv hws, hsound'⟩

theorem runAll_sound (hdet : Determines key eval all) {xss : List (List α)} :
    ∀ {table : Table κ ν} {vss : List (List ν)}, Sound key eval all table →
      (∀ xs ∈ xss, ∀ x ∈ xs, x ∈ all) → runAll key eval table xss = .ok (vss, table') →
      List.Forall₂ (List.Forall₂ fun x v => eval x = .ok v) xss vss := by
  induction xss with
  | nil =>
    intro table vss _ _ h
    cases h
    exact .nil
  | cons xs xss ih =>
    intro table vss hsound hall h
    obtain ⟨hxs, hxss⟩ := List.forall_mem_cons.mp hall
    obtain ⟨vs, wss, table₁, hrun, hrest, rfl⟩ := runAll_cons h
    obtain ⟨hvs, hsound₁⟩ := run_sound hdet hsound hxs hrun
    exact .cons hvs (ih hsound₁ hxss hrest)

/-- **Transparency.** The inputs are given their own results exactly when the key determines the
result. -/
theorem runAll_transparent_iff {xss : List (List α)} {vss : List (List ν)}
    (h : runAll key eval [] xss = .ok (vss, table)) :
    List.Forall₂ (List.Forall₂ fun x v => eval x = .ok v) xss vss ↔
      Determines key eval xss.flatten := by
  constructor
  · intro hown
    have hheld : ∀ x ∈ xss.flatten, ∃ v, eval x = .ok v ∧ Holds key table x v := by
      intro x hx
      obtain ⟨xs, hxs, hx⟩ := List.mem_flatten.mp hx
      obtain ⟨vs, hvs, hvs'⟩ := exists_of_forall₂ hown (runAll_lookup h).2 xs hxs
      exact exists_of_forall₂ hvs hvs' x hx
    intro x hx y hy k hkey hkey'
    obtain ⟨v, hv, kx, hkx, hentry⟩ := hheld x hx
    obtain ⟨w, hw, ky, hky, hentry'⟩ := hheld y hy
    -- both results are the entry of the one key
    obtain rfl : k = kx := Except.ok.inj (hkey.symm.trans hkx)
    obtain rfl : k = ky := Except.ok.inj (hkey'.symm.trans hky)
    rw [hv, hw, Option.some.inj (hentry.symm.trans hentry')]
  · intro hdet
    refine runAll_sound hdet (sound_nil _) (fun xs hxs x hx => ?_) h
    exact List.mem_flatten_of_mem hxs hx

end Memo

end ToolAgent
