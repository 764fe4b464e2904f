import ToolAgent.Library.Documents

/-!
# Tables

A table maps keys to values and remembers the order in which the keys were first set. It carries the
proof that no key occurs twice, so a value under a key is the value.

`All` is a property of every entry. To keep a property of all entries it is enough to look at the
entry that is set.

## Main definitions

* `Table`, `get?`, `set`, `erase` — tables
* `All` — properties of the entries

## Main results

* `get?_set`, `get?_erase` — what a write changes
* `All.set`, `All.erase` — properties of every entry
-/

namespace ToolAgent

namespace Tables

open Documents

/-- A table. -/
@[ext] structure Table (κ β : Type) where
  items : List (κ × β)
  nodup : (items.map Prod.fst).Nodup

namespace Table

variable {κ β : Type}

def empty : Table κ β := ⟨[], List.nodup_nil⟩

section Access

variable [DecidableEq κ] {t : Table κ β} {k k' : κ} {v : β}

instance [DecidableEq β] : DecidableEq (Table κ β) := fun s t =>
  decidable_of_iff (s.items = t.items) Table.ext_iff.symm

def get? (t : Table κ β) (k : κ) : Option β := t.items.lookup k

/-- An existing key keeps its place. -/
def set (t : Table κ β) (k : κ) (v : β) : Table κ β :=
  ⟨setItem t.items k v, nodup_setItem k v t.nodup⟩

def erase (t : Table κ β) (k : κ) : Table κ β :=
  ⟨t.items.filter (·.1 ≠ k), (List.filter_sublist.map _).nodup t.nodup⟩

theorem get?_set (t : Table κ β) (k k' : κ) (v : β) :
    (t.set k v).get? k' = if k' = k then some v else t.get? k' :=
  lookup_setItem t.items k k' v

@[simp] theorem get?_set_self (t : Table κ β) (k : κ) (v : β) : (t.set k v).get? k = some v := by
  rw [get?_set, if_pos rfl]

theorem get?_set_of_ne (h : k' ≠ k) : (t.set k v).get? k' = t.get? k' := by
  rw [get?_set, if_neg h]

theorem get?_erase (t : Table κ β) (k k' : κ) :
    (t.erase k).get? k' = if k' = k then none else t.get? k' := by
  show (t.items.filter (·.1 ≠ k)).lookup k' = if k' = k then none else t.items.lookup k'
  generalize t.items = items
  induction items with
  | nil => split <;> rfl
  | cons item rest ih =>
    obtain ⟨l, w⟩ := item
    rw [List.filter_cons]
    by_cases hl : l = k
    · rw [if_neg (by simpa using hl), ih, lookup_cons_eq]
      by_cases hk : k' = k
      · rw [if_pos hk, if_pos hk]
      · rw [if_neg hk, if_neg hk, if_neg fun h => hk (h.trans hl)]
    · rw [if_pos (by simpa using hl), lookup_cons_eq, lookup_cons_eq, ih]
      by_cases hk : k' = l
      · rw [if_pos hk, if_pos hk, if_neg fun h => hl (hk.symm.trans h)]
      · rw [if_neg hk, if_neg hk]

/-- An entry is what its key has. -/
theorem get?_eq_some_iff : t.get? k = some v ↔ (k, v) ∈ t.items := by
  constructor
  · intro h
    obtain ⟨before, after, heq, -⟩ := List.lookup_eq_some_iff.mp h
    exact heq ▸ List.mem_append_right _ List.mem_cons_self
  · intro h
    obtain ⟨items, hnodup⟩ := t
    show items.lookup k = some v
    induction items with
    | nil => cases h
    | cons item rest ih =>
      obtain ⟨l, w⟩ := item
      rw [List.map_cons, List.nodup_cons] at hnodup
      rw [lookup_cons_eq]
      rcases List.mem_cons.mp h with heq | h
      · obtain ⟨rfl, rfl⟩ := Prod.mk.inj heq
        rw [if_pos rfl]
      · rw [if_neg fun heq => hnodup.1 (List.mem_map.mpr ⟨(k, v), h, heq⟩), ih hnodup.2 h]

/-- A write that leaves what a function reads of the entry leaves it for every entry. -/
theorem map_get?_set {γ : Type} {f : β → γ} (h : t.get? k = some old) (hf : f v = f old) (k' : κ) :
    ((t.set k v).get? k').map f = (t.get? k').map f := by
  rw [get?_set]
  split
  · next heq => rw [heq, h, Option.map_some, Option.map_some, hf]
  · rfl

/-! ### Properties of every entry -/

/-- Every entry has the property. -/
def All (t : Table κ β) (P : κ → β → Prop) : Prop := ∀ k v, t.get? k = some v → P k v

variable {P Q : κ → β → Prop}

theorem all_iff : t.All P ↔ ∀ item ∈ t.items, P item.1 item.2 :=
  ⟨fun h item hitem => h item.1 item.2 (get?_eq_some_iff.mpr hitem),
    fun h k v hv => h (k, v) (get?_eq_some_iff.mp hv)⟩

instance [∀ k v, Decidable (P k v)] : Decidable (t.All P) := decidable_of_iff _ all_iff.symm

theorem All.mono (h : t.All P) (hPQ : ∀ k v, P k v → Q k v) : t.All Q :=
  fun k v hv => hPQ k v (h k v hv)

theorem All.set (h : t.All P) (hv : P k v) : (t.set k v).All P := by
  intro k' v' hk'
  rw [get?_set] at hk'
  split at hk'
  · next heq =>
    obtain rfl := heq
    obtain rfl : v = v' := Option.some.inj hk'
    exact hv
  · exact h k' v' hk'

theorem All.erase (h : t.All P) : (t.erase k).All P := by
  intro k' v' hk'
  rw [get?_erase] at hk'
  split at hk'
  · cases hk'
  · exact h k' v' hk'

end Access

end Table

end Tables

end ToolAgent
