import Mathlib.Data.Int.Log
import Mathlib.Data.List.Basic
import Mathlib.Data.List.Forall2
import Mathlib.Data.Rat.Floor

/-!
# Python values

The part of Python's data model that programs over JSON documents use: strings, floats, the six
JSON shapes, exceptions, and the handful of operators (`dict.get`, truth testing, slicing) whose
corner cases decide what such a program does.

## Strings are code points

A Python `str` is a sequence of code points, lone surrogates included, and `json.loads` does
produce lone surrogates. Lean's `String` has none, so `PyStr` is a list of code points and Lean
string literals are coerced into it.

## Exceptions

Fallible code returns `Except PyErr`. An exception is its class and its message; `ExcClass.isA` is
the subclass relation, which is what an `except` clause tests.

## Main definitions

* `PyStr`, `PyFloat`, `PyVal` — strings, floats and JSON values
* `ExcClass`, `PyErr`, `PyErr.caughtBy` — exceptions and `except` clauses
* `PyVal.truthy`, `dictGet`, `dictSet` — truth testing and dictionaries
* `sliceTo`, `sliceFrom` — `xs[:k]` and `xs[k:]` for every integer `k`
-/

namespace ToolAgent

namespace Python

/-! ### Strings -/

/-- A Python `str`, as its code points. -/
abbrev PyStr := List ℕ

/-- The code points of a Lean string. -/
def PyStr.ofString (s : String) : PyStr := s.toList.map Char.toNat

instance : Coe String PyStr := ⟨PyStr.ofString⟩

/-- Whether `sub` occurs in `s`: Python's `sub in s`. -/
def isSubstr (sub : PyStr) : PyStr → Bool
  | [] => sub.isEmpty
  | c :: s => sub.isPrefixOf (c :: s) || isSubstr sub s

theorem isSubstr_iff {sub s : PyStr} : isSubstr sub s = true ↔ sub <:+: s := by
  induction s with
  | nil => rw [isSubstr, List.isEmpty_iff, List.infix_nil]
  | cons c s ih =>
    rw [isSubstr, Bool.or_eq_true, List.isPrefixOf_iff_prefix, ih, List.infix_cons_iff]

/-! ### Floats -/

/-- A Python `float`. Finite values are exact rationals and the two zeros are not told apart. -/
inductive PyFloat where
  | fin (q : ℚ)
  | inf (neg : Bool)
  | nan
  deriving DecidableEq

/-- Round to the nearest integer, ties to even: the rounding of IEEE 754 and of `round`. -/
def roundHalfEven (q : ℚ) : ℤ :=
  let f := ⌊q⌋
  if q - f < 1 / 2 then f
  else if 1 / 2 < q - f then f + 1
  else if f % 2 = 0 then f
  else f + 1

/-- The double nearest to `q`. The exponent is cut off at the subnormal range below, and a
magnitude that rounds to `2 ^ 1024` is an infinity. -/
def PyFloat.ofRat (q : ℚ) : PyFloat :=
  let ulp : ℚ := 2 ^ (max (Int.log 2 |q|) (-1022) - 52)
  let r := roundHalfEven (q / ulp) * ulp
  if |r| < 2 ^ 1024 then .fin r else .inf (decide (r < 0))

/-! ### JSON values -/

/-- A value built from JSON: what `json.loads` can return. A dictionary lists its items in
insertion order. -/
inductive PyVal where
  | null
  | bool (b : Bool)
  | int (n : ℤ)
  | float (x : PyFloat)
  | str (s : PyStr)
  | list (xs : List PyVal)
  | dict (items : List (PyStr × PyVal))

mutual

/-- Structural equality. -/
def PyVal.beq : PyVal → PyVal → Bool
  | .null, w => match w with | .null => true | _ => false
  | .bool a, w => match w with | .bool b => a = b | _ => false
  | .int m, w => match w with | .int n => m = n | _ => false
  | .float x, w => match w with | .float y => x = y | _ => false
  | .str s, w => match w with | .str t => s = t | _ => false
  | .list xs, w => match w with | .list ys => PyVal.beqList xs ys | _ => false
  | .dict kvs, w => match w with | .dict kvs' => PyVal.beqItems kvs kvs' | _ => false

def PyVal.beqList : List PyVal → List PyVal → Bool
  | [], ys => ys.isEmpty
  | x :: xs, ys => match ys with | y :: ys => PyVal.beq x y && PyVal.beqList xs ys | [] => false

def PyVal.beqItems : List (PyStr × PyVal) → List (PyStr × PyVal) → Bool
  | [], ys => ys.isEmpty
  | (k, v) :: xs, ys =>
    match ys with
    | (k', v') :: ys => k = k' && PyVal.beq v v' && PyVal.beqItems xs ys
    | [] => false

end

mutual

theorem PyVal.beq_iff : ∀ v w : PyVal, PyVal.beq v w = true ↔ v = w
  | .null, w => by cases w <;> simp [PyVal.beq]
  | .bool a, w => by cases w <;> simp [PyVal.beq]
  | .int a, w => by cases w <;> simp [PyVal.beq]
  | .float a, w => by cases w <;> simp [PyVal.beq]
  | .str a, w => by cases w <;> simp [PyVal.beq]
  | .list xs, w => by cases w <;> simp [PyVal.beq, PyVal.beqList_iff xs]
  | .dict kvs, w => by cases w <;> simp [PyVal.beq, PyVal.beqItems_iff kvs]

theorem PyVal.beqList_iff : ∀ xs ys : List PyVal, PyVal.beqList xs ys = true ↔ xs = ys
  | [], ys => by cases ys <;> simp [PyVal.beqList]
  | x :: xs, ys => by cases ys <;> simp [PyVal.beqList, PyVal.beq_iff x, PyVal.beqList_iff xs]

theorem PyVal.beqItems_iff :
    ∀ xs ys : List (PyStr × PyVal), PyVal.beqItems xs ys = true ↔ xs = ys
  | [], ys => by cases ys <;> simp [PyVal.beqItems]
  | (k, v) :: xs, ys => by
    cases ys <;>
      simp [PyVal.beqItems, PyVal.beq_iff v, PyVal.beqItems_iff xs, Prod.ext_iff]

end

instance : DecidableEq PyVal := fun v w => decidable_of_iff _ (PyVal.beq_iff v w)

/-- Truth testing: `bool(v)`. -/
def PyVal.truthy : PyVal → Bool
  | .null => false
  | .bool b => b
  | .int n => n ≠ 0
  | .float x => x ≠ .fin 0
  | .str s => !s.isEmpty
  | .list xs => !xs.isEmpty
  | .dict items => !items.isEmpty

/-- Python's `v or w`. -/
def PyVal.or (v w : PyVal) : PyVal := if v.truthy then v else w

/-- `isinstance(v, dict)`. -/
def PyVal.isDict : PyVal → Bool
  | .dict _ => true
  | _ => false

/-- `d.get(k, default)` on the items of a dictionary. -/
def dictGet (items : List (PyStr × PyVal)) (k : PyStr) (default : PyVal := .null) : PyVal :=
  (items.lookup k).getD default

section Dict

variable {α : Type*}

/-- `d[k] = v` on the items of a dictionary: an existing key keeps its place. -/
def dictSet (items : List (PyStr × α)) (k : PyStr) (v : α) : List (PyStr × α) :=
  match items with
  | [] => [(k, v)]
  | (k', v') :: rest => if k' = k then (k, v) :: rest else (k', v') :: dictSet rest k v

theorem lookup_cons_ite (items : List (PyStr × α)) (k k' : PyStr) (v : α) :
    List.lookup k' ((k, v) :: items) = if k' = k then some v else items.lookup k' := by
  by_cases h : k' = k
  · rw [if_pos h, h, List.lookup_cons_self]
  · have hne : (k' == k) = false := by simpa using h
    rw [if_neg h, List.lookup_cons, hne]

theorem lookup_dictSet (items : List (PyStr × α)) (k k' : PyStr) (v : α) :
    (dictSet items k v).lookup k' = if k' = k then some v else items.lookup k' := by
  induction items with
  | nil => rw [dictSet, lookup_cons_ite]
  | cons kv rest ih =>
    obtain ⟨l, w⟩ := kv
    by_cases h : l = k
    · rw [dictSet, if_pos h, lookup_cons_ite, lookup_cons_ite]
      by_cases h' : k' = k
      · rw [if_pos h', if_pos h']
      · rw [if_neg h', if_neg h', if_neg fun hl => h' (hl.trans h)]
    · rw [dictSet, if_neg h, lookup_cons_ite, ih, lookup_cons_ite]
      by_cases h' : k' = l
      · rw [if_pos h', if_pos h', if_neg fun hk => h (h'.symm.trans hk)]
      · rw [if_neg h', if_neg h']

theorem dictSet_of_lookup {items : List (PyStr × α)} {k : PyStr} {v : α}
    (h : items.lookup k = some v) : dictSet items k v = items := by
  induction items with
  | nil => cases h
  | cons kv rest ih =>
    obtain ⟨l, w⟩ := kv
    rw [lookup_cons_ite] at h
    rw [dictSet]
    split at h
    · next heq => rw [if_pos heq.symm, Option.some.inj h, heq]
    · next hne => rw [if_neg (Ne.symm hne), ih h]

end Dict

theorem dictGet_dictSet_of_ne {items : List (PyStr × PyVal)} {k k' : PyStr} (h : k' ≠ k)
    (v default : PyVal) : dictGet (dictSet items k v) k' default = dictGet items k' default := by
  rw [dictGet, lookup_dictSet, if_neg h, dictGet]

theorem dictGet_dictSet_self {items : List (PyStr × PyVal)} (k : PyStr) (v default : PyVal) :
    dictGet (dictSet items k v) k default = v := by
  rw [dictGet, lookup_dictSet, if_pos rfl, Option.getD_some]

/-! ### Exceptions -/

/-- The exception classes that the modelled code raises or catches. -/
inductive ExcClass where
  | exception
  | valueError
  | jsonDecodeError
  | unicodeEncodeError
  | typeError
  | attributeError
  | lookupError
  | keyError
  | indexError
  | overflowError
  | zeroDivisionError
  | runtimeError
  | recursionError
  | assertionError
  | osError
  | urlError
  | timeoutError
  deriving DecidableEq, Repr

/-- The direct base class, up to `Exception`. -/
def ExcClass.base : ExcClass → ExcClass
  | .jsonDecodeError | .unicodeEncodeError => .valueError
  | .keyError | .indexError => .lookupError
  | .recursionError => .runtimeError
  | .urlError | .timeoutError => .osError
  | _ => .exception

/-- The subclass relation. No modelled class is more than two steps below `Exception`. -/
def ExcClass.isA (c d : ExcClass) : Bool :=
  c = d || c.base = d || c.base.base = d

/-- A raised exception: its class and its message. -/
structure PyErr where
  cls : ExcClass
  msg : PyStr
  deriving DecidableEq

/-- `type(exc).__name__`. -/
def ExcClass.name : ExcClass → PyStr
  | .exception => "Exception"
  | .valueError => "ValueError"
  | .jsonDecodeError => "JSONDecodeError"
  | .unicodeEncodeError => "UnicodeEncodeError"
  | .typeError => "TypeError"
  | .attributeError => "AttributeError"
  | .lookupError => "LookupError"
  | .keyError => "KeyError"
  | .indexError => "IndexError"
  | .overflowError => "OverflowError"
  | .zeroDivisionError => "ZeroDivisionError"
  | .runtimeError => "RuntimeError"
  | .recursionError => "RecursionError"
  | .assertionError => "AssertionError"
  | .osError => "OSError"
  | .urlError => "URLError"
  | .timeoutError => "TimeoutError"

/-- `f"{type(exc).__name__}: {exc}"`. -/
def PyErr.describe (e : PyErr) : PyStr := e.cls.name ++ ": " ++ e.msg

/-- Whether an `except` clause naming `classes` catches `e`. -/
def PyErr.caughtBy (e : PyErr) (classes : List ExcClass) : Bool :=
  classes.any e.cls.isA

theorem PyErr.caughtBy_mono {e : PyErr} {classes classes' : List ExcClass}
    (hsub : classes ⊆ classes') (h : e.caughtBy classes = true) : e.caughtBy classes' = true := by
  rw [PyErr.caughtBy, List.any_eq_true] at h ⊢
  obtain ⟨c, hc, hisA⟩ := h
  exact ⟨c, hsub hc, hisA⟩

/-- `raise cls(msg)`. -/
def throw {α : Type*} (cls : ExcClass) (msg : String) : Except PyErr α :=
  .error ⟨cls, msg⟩

theorem ok_bind {ε α β : Type} (a : α) (f : α → Except ε β) : (Except.ok a >>= f) = f a := rfl

/-- A successful sequence is two successful halves. -/
theorem bind_eq_ok {ε α β : Type} {x : Except ε α} {f : α → Except ε β} {b : β} :
    (x >>= f) = .ok b ↔ ∃ a, x = .ok a ∧ f a = .ok b := by
  cases x with
  | error e => simp [bind, Except.bind]
  | ok a => simp [bind, Except.bind]

/-- A sequence whose second half always succeeds. -/
theorem exists_bind_ok {ε α β : Type} {x : Except ε α} {f : α → β} :
    (∃ b, (x >>= fun a => .ok (f a)) = .ok b) ↔ ∃ a, x = .ok a := by
  cases x <;> simp [bind, Except.bind]

theorem exists_bind_of_ok {ε α β : Type} {x : Except ε α} {f : α → Except ε β} {a : α}
    (hx : x = .ok a) (hf : ∃ b, f a = .ok b) : ∃ b, (x >>= f) = .ok b :=
  hx ▸ hf

theorem map_eq_ok {ε α β : Type} {x : Except ε α} {f : α → β} {b : β} :
    x.map f = .ok b ↔ ∃ a, x = .ok a ∧ f a = b := by
  cases x <;> simp [Except.map]

theorem exists_map_eq_ok {ε α β : Type} {x : Except ε α} {f : α → β} :
    (∃ b, x.map f = .ok b) ↔ ∃ a, x = .ok a := by
  cases x <;> simp [Except.map]

theorem map_eq_error {ε α β : Type} {x : Except ε α} {f : α → β} {e : ε} :
    x.map f = .error e ↔ x = .error e := by
  cases x <;> simp [Except.map]

/-- **A traversal that succeeds**, as an equation about its results. -/
theorem mapM_eq_ok_iff {ε α β : Type} {f : α → Except ε β} {xs : List α} :
    ∀ {ys : List β}, xs.mapM f = .ok ys ↔ xs.map (fun x => (f x).toOption) = ys.map some := by
  induction xs with
  | nil =>
    intro ys
    cases ys <;> simp [pure, Except.pure]
  | cons x xs ih =>
    intro ys
    rw [List.mapM_cons, bind_eq_ok]
    cases hx : f x with
    | error e => cases ys <;> simp [hx, Except.toOption]
    | ok y =>
      cases ys with
      | nil => simp [bind_eq_ok, pure, Except.pure]
      | cons y' ys => simp [bind_eq_ok, pure, Except.pure, hx, ih, Except.toOption, and_comm]

theorem toOption_eq_some {ε α : Type} {x : Except ε α} {a : α} :
    x.toOption = some a ↔ x = .ok a := by
  cases x <;> simp [Except.toOption]

theorem mapM_eq_ok_map {ε α β : Type} {f : α → Except ε β} {g : α → β} {xs : List α}
    (h : ∀ x ∈ xs, f x = .ok (g x)) : xs.mapM f = .ok (xs.map g) := by
  rw [mapM_eq_ok_iff, List.map_map]
  exact List.map_congr_left fun x hx => toOption_eq_some.mpr (h x hx)

/-- What succeeds on a list succeeds on each of its elements. -/
theorem exists_mapM {ε α β : Type} {f : α → Except ε β} {xs : List α}
    (h : ∀ x ∈ xs, ∃ y, f x = .ok y) : ∃ ys, xs.mapM f = .ok ys := by
  induction xs with
  | nil => exact ⟨[], rfl⟩
  | cons x xs ih =>
    obtain ⟨⟨y, hy⟩, hxs⟩ := List.forall_mem_cons.mp h
    obtain ⟨ys, hys⟩ := ih hxs
    refine ⟨y :: ys, ?_⟩
    rw [List.mapM_cons, hy, hys]
    rfl

theorem exists_of_mapM {ε α β : Type} {f : α → Except ε β} {xs : List α} {ys : List β}
    (h : xs.mapM f = .ok ys) : ∀ x ∈ xs, ∃ y, f x = .ok y := by
  intro x hx
  have hmem := List.mem_map_of_mem (f := fun x => (f x).toOption) hx
  rw [mapM_eq_ok_iff.mp h] at hmem
  obtain ⟨y, -, hy⟩ := List.mem_map.mp hmem
  exact ⟨y, toOption_eq_some.mp hy.symm⟩

/-- What a traversal yields comes from one of the elements. -/
theorem exists_mem_of_mapM {ε α β : Type} {f : α → Except ε β} {xs : List α} {ys : List β}
    (h : xs.mapM f = .ok ys) : ∀ y ∈ ys, ∃ x ∈ xs, f x = .ok y := by
  intro y hy
  have hmem := List.mem_map_of_mem (f := some) hy
  rw [← mapM_eq_ok_iff.mp h] at hmem
  obtain ⟨x, hx, hfx⟩ := List.mem_map.mp hmem
  exact ⟨x, hx, toOption_eq_some.mp hfx⟩

/-- What a traversal yields, element by element. -/
theorem mapM_eq_ok_iff_forall₂ {ε α β : Type} {f : α → Except ε β} {xs : List α} {ys : List β} :
    xs.mapM f = .ok ys ↔ List.Forall₂ (fun x y => f x = .ok y) xs ys := by
  rw [mapM_eq_ok_iff, ← List.forall₂_eq_eq_eq, List.forall₂_map_left_iff, List.forall₂_map_right_iff]
  simp only [toOption_eq_some]

theorem length_of_mapM {ε α β : Type} {f : α → Except ε β} {xs : List α} {ys : List β}
    (h : xs.mapM f = .ok ys) : ys.length = xs.length := by
  have hlen := congrArg List.length (mapM_eq_ok_iff.mp h)
  rw [List.length_map, List.length_map] at hlen
  exact hlen.symm

/-- A traversal by an option that is never `none`. -/
theorem map_eq_map_some {α β : Type} {f : α → Option β} {xs : List α} {ys : List β} :
    xs.map f = ys.map some ↔ xs.filterMap f = ys ∧ (xs.filterMap f).length = xs.length := by
  constructor
  · intro h
    have hmap : xs.filterMap f = ys := by
      have hys := congrArg (List.filterMap id) h
      rwa [List.filterMap_map, List.filterMap_map, Function.id_comp, Function.id_comp,
        List.filterMap_some] at hys
    refine ⟨hmap, ?_⟩
    rw [hmap, ← List.length_map some, ← h, List.length_map]
  · rintro ⟨rfl, hlen⟩
    rw [List.map_filterMap_some_eq_filter_map_isSome, List.filter_eq_self.mpr]
    intro y hy
    obtain ⟨x, hx, rfl⟩ := List.mem_map.mp hy
    exact List.filterMap_length_eq_length.mp hlen x hx

/-- `xs[i]` for an index that does not count from the end. -/
def item {α : Type} (xs : List α) (i : ℕ) : Except PyErr α :=
  match xs[i]? with
  | some x => .ok x
  | none => throw .indexError "list index out of range"

theorem item_eq_ok {α : Type} {xs : List α} {i : ℕ} {x : α} :
    item xs i = .ok x ↔ xs[i]? = some x := by
  rw [item]
  split <;> simp_all [throw]

theorem toOption_item {α : Type} (xs : List α) (i : ℕ) : (item xs i).toOption = xs[i]? := by
  rw [item]
  cases xs[i]? <;> rfl

/-- Selecting the elements at indices that are all in range. -/
theorem exists_mapM_item {α : Type} {xs : List α} {is : List ℕ} (h : ∀ i ∈ is, i < xs.length) :
    ∃ ys, is.mapM (item xs) = .ok ys ∧ ys.map some = is.map fun i => xs[i]? := by
  induction is with
  | nil => exact ⟨[], rfl, rfl⟩
  | cons i is ih =>
    obtain ⟨hi, his⟩ := List.forall_mem_cons.mp h
    obtain ⟨ys, hys, hmap⟩ := ih his
    have hitem : item xs i = .ok xs[i] := item_eq_ok.mpr (List.getElem?_eq_getElem hi)
    refine ⟨xs[i] :: ys, ?_, ?_⟩
    · rw [List.mapM_cons, hitem, hys]
      rfl
    · rw [List.map_cons, List.map_cons, hmap, List.getElem?_eq_getElem hi]

/-! ### Attribute access on a value of unknown shape -/

/-- The Python type name, as it stands in error messages. -/
def PyVal.typeName : PyVal → PyStr
  | .null => "NoneType"
  | .bool _ => "bool"
  | .int _ => "int"
  | .float _ => "float"
  | .str _ => "str"
  | .list _ => "list"
  | .dict _ => "dict"

/-- `v.get(k, default)`. Only a dictionary has `get`. -/
def PyVal.get (v : PyVal) (k : PyStr) (default : PyVal := .null) : Except PyErr PyVal :=
  match v with
  | .dict items => .ok (dictGet items k default)
  | v => .error ⟨.attributeError, "'" ++ v.typeName ++ "' object has no attribute 'get'"⟩

theorem PyVal.get_dict (items : List (PyStr × PyVal)) (k : PyStr) (default : PyVal) :
    (PyVal.dict items).get k default = .ok (dictGet items k default) := rfl

/-- `v[key]` -/
def getKey (v : PyVal) (key : PyStr) : Except PyErr PyVal :=
  match v with
  | .dict items =>
    match items.lookup key with
    | some w => .ok w
    | none => .error ⟨.keyError, "'" ++ key ++ "'"⟩
  | .list _ => throw .typeError "list indices must be integers or slices, not str"
  | .str _ => throw .typeError "string indices must be integers, not 'str'"
  | v => .error ⟨.typeError, "'" ++ v.typeName ++ "' object is not subscriptable"⟩

/-- Iterating over a value: `list(v)`. A string yields its characters, a dictionary its keys. -/
def PyVal.iter : PyVal → Except PyErr (List PyVal)
  | .list xs => .ok xs
  | .str s => .ok (s.map fun c => .str [c])
  | .dict items => .ok (items.map fun kv => .str kv.1)
  | v => .error ⟨.typeError, "'" ++ v.typeName ++ "' object is not iterable"⟩

/-! ### Slices -/

section Slice

variable {α : Type*}

/-- `xs[:k]`: a negative `k` counts from the end. -/
def sliceTo (xs : List α) (k : ℤ) : List α :=
  if 0 ≤ k then xs.take k.toNat else xs.take (xs.length - (-k).toNat)

theorem sliceTo_map {β : Type*} (f : α → β) (xs : List α) (k : ℤ) :
    (sliceTo xs k).map f = sliceTo (xs.map f) k := by
  rw [sliceTo, sliceTo, List.length_map]
  split
  · exact List.map_take
  · exact List.map_take

/-- `xs[k:]`: a negative `k` counts from the end. -/
def sliceFrom (xs : List α) (k : ℤ) : List α :=
  if 0 ≤ k then xs.drop k.toNat else xs.drop (xs.length - (-k).toNat)

end Slice

end Python

end ToolAgent
