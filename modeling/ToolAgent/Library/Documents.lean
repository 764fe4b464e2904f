import Mathlib.Data.List.Basic

/-!
# Nested mappings

A document is a finite tree of mappings: no mapping contains itself. A mapping lists its items in
the order in which the keys were first set, what is not a mapping is a leaf, and neither keys nor
leaves are looked into.

`Distinct` says of a document what a dictionary promises of itself: no mapping has a key twice.

## Main definitions

* `Node`, `Items` — documents
* `setItem` — one item is set
* `Node.valueAt` — the value at a path of keys
* `Node.Distinct`, `Document` — documents without repeated keys
-/

namespace ToolAgent

namespace Documents

/-- A value of a document. -/
inductive Node (κ α : Type) where
  | leaf (a : α)
  | mapping (items : List (κ × Node κ α))

/-- The items of a mapping. -/
abbrev Items (κ α : Type) := List (κ × Node κ α)

/-- No mapping of the document has a key twice. -/
inductive Node.Distinct {κ α : Type} : Node κ α → Prop
  | leaf (a : α) : Distinct (.leaf a)
  | mapping {items : Items κ α} : (items.map Prod.fst).Nodup →
      (∀ item ∈ items, Distinct item.2) → Distinct (.mapping items)

abbrev Document (κ α : Type) := {node : Node κ α // node.Distinct}

variable {κ α β : Type}

theorem Node.distinct_mapping {items : Items κ α} : (Node.mapping items).Distinct ↔
    (items.map Prod.fst).Nodup ∧ ∀ item ∈ items, item.2.Distinct := by
  constructor
  · rintro (_ | ⟨hnodup, hvalues⟩)
    exact ⟨hnodup, hvalues⟩
  · exact fun h => .mapping h.1 h.2

theorem Node.distinct_singleton {key : κ} {value : Node κ α} (h : value.Distinct) :
    (Node.mapping [(key, value)]).Distinct :=
  .mapping (List.pairwise_singleton _ _) (List.forall_mem_singleton.mpr h)

theorem Node.distinct_cons {key : κ} {value : Node κ α} {rest : Items κ α}
    (h : (Node.mapping ((key, value) :: rest)).Distinct) :
    key ∉ rest.map Prod.fst ∧ value.Distinct ∧ (Node.mapping rest).Distinct := by
  obtain ⟨hnodup, hvalues⟩ := distinct_mapping.mp h
  rw [List.map_cons, List.nodup_cons] at hnodup
  obtain ⟨hvalue, hrest⟩ := List.forall_mem_cons.mp hvalues
  exact ⟨hnodup.1, hvalue, .mapping hnodup.2 hrest⟩

variable [DecidableEq κ]

/-- An item is set. An existing key keeps its place. -/
def setItem (items : List (κ × β)) (key : κ) (value : β) : List (κ × β) :=
  match items with
  | [] => [(key, value)]
  | (key', value') :: rest =>
    if key' = key then (key, value) :: rest else (key', value') :: setItem rest key value

theorem lookup_cons_eq (items : List (κ × β)) (key key' : κ) (value : β) :
    List.lookup key' ((key, value) :: items) =
      if key' = key then some value else items.lookup key' := by
  by_cases h : key' = key
  · rw [if_pos h, h, List.lookup_cons_self]
  · rw [if_neg h, List.lookup_cons, beq_eq_false_iff_ne.mpr h]

theorem lookup_setItem (items : List (κ × β)) (key key' : κ) (value : β) :
    (setItem items key value).lookup key' =
      if key' = key then some value else items.lookup key' := by
  induction items with
  | nil => rw [setItem, lookup_cons_eq]
  | cons item rest ih =>
    obtain ⟨k, v⟩ := item
    rw [setItem]
    split
    · next heq =>
      rw [lookup_cons_eq, lookup_cons_eq, heq]
      split <;> rfl
    · next hne =>
      rw [lookup_cons_eq, lookup_cons_eq, ih]
      split
      · next heq => rw [if_neg (heq ▸ hne)]
      · rfl

/-- What a mapping has after an item is set. -/
theorem mem_setItem {items : List (κ × β)} {key : κ} {value : β} {item : κ × β}
    (h : item ∈ setItem items key value) : item = (key, value) ∨ item ∈ items := by
  induction items with
  | nil => exact .inl (List.mem_singleton.mp h)
  | cons head rest ih =>
    obtain ⟨k, v⟩ := head
    rw [setItem] at h
    split at h
    · exact (List.mem_cons.mp h).imp id (List.mem_cons_of_mem _)
    · rcases List.mem_cons.mp h with rfl | h
      · exact .inr List.mem_cons_self
      · exact (ih h).imp id (List.mem_cons_of_mem _)

theorem nodup_setItem {items : List (κ × β)} (key : κ) (value : β)
    (h : (items.map Prod.fst).Nodup) : ((setItem items key value).map Prod.fst).Nodup := by
  induction items with
  | nil => exact List.pairwise_singleton _ key
  | cons head rest ih =>
    obtain ⟨k, v⟩ := head
    rw [List.map_cons, List.nodup_cons] at h
    rw [setItem]
    split
    · next heq =>
      rw [List.map_cons, List.nodup_cons]
      exact ⟨heq ▸ h.1, h.2⟩
    · next hne =>
      rw [List.map_cons, List.nodup_cons]
      refine ⟨fun hmem => ?_, ih h.2⟩
      obtain ⟨item, hitem, heq⟩ := List.mem_map.mp hmem
      rcases mem_setItem hitem with rfl | hitem
      · exact hne heq.symm
      · exact h.1 (List.mem_map.mpr ⟨item, hitem, heq⟩)

theorem Node.Distinct.setItem {items : Items κ α} {key : κ} {value : Node κ α}
    (h : (Node.mapping items).Distinct) (hvalue : value.Distinct) :
    (Node.mapping (setItem items key value)).Distinct := by
  obtain ⟨hnodup, hvalues⟩ := distinct_mapping.mp h
  refine .mapping (nodup_setItem key value hnodup) fun item hitem => ?_
  rcases mem_setItem hitem with rfl | hitem
  · exact hvalue
  · exact hvalues item hitem

/-- A value that is looked up in a document is one. -/
theorem Node.Distinct.lookup {items : Items κ α} {key : κ} {value : Node κ α}
    (h : (Node.mapping items).Distinct) (hlookup : items.lookup key = some value) :
    value.Distinct := by
  obtain ⟨before, after, heq, -⟩ := List.lookup_eq_some_iff.mp hlookup
  exact (distinct_mapping.mp h).2 (key, value) (heq ▸ List.mem_append_right _ List.mem_cons_self)

end Documents

end ToolAgent
