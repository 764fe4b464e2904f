import ToolAgent.Python.Builtins

/-!
# Paths

`pathlib` on a POSIX system, as far as no file is touched: a path is a root and its parts, and
neither links nor `..` are resolved.

## Main definitions

* `Path` — a path, `Path.ofText` and `Path.str` for its text
* `Path.parent`, `Path.joinpath`, `Path.suffix`
-/

namespace ToolAgent

namespace Python

/-- A `PurePosixPath`. No part is empty, `.` or has a slash if the path comes from a text. -/
structure Path where
  root : PyStr
  parts : List PyStr
  deriving DecidableEq

/-- The root of a text. Two leading slashes are a root of their own, any other number is the usual
one. -/
def rootOf (text : PyStr) : PyStr :=
  if text.head? ≠ some (ch '/') then []
  else if text[1]? = some (ch '/') ∧ text[2]? ≠ some (ch '/') then "//"
  else "/"

/-- `Path(text)`. -/
def Path.ofText (text : PyStr) : Path where
  root := rootOf text
  parts := (splitOn (ch '/') text).filter fun part => part ≠ [] ∧ part ≠ "."

/-- `str(path)`. -/
def Path.str (path : Path) : PyStr :=
  if path.root = [] ∧ path.parts = [] then "." else path.root ++ List.intercalate "/" path.parts

/-- `path.parent`. -/
def Path.parent (path : Path) : Path := { path with parts := path.parts.dropLast }

/-- `path / text`. A text with a root replaces the path. -/
def Path.joinpath (path : Path) (text : PyStr) : Path :=
  if rootOf text = [] then { path with parts := path.parts ++ (Path.ofText text).parts }
  else Path.ofText text

/-- `path.name`. -/
def Path.name (path : Path) : PyStr := path.parts.getLast?.getD []

/-- `path.suffix`: what follows the last dot of the name, with the dot, unless one of its sides is
empty. -/
def Path.suffix (path : Path) : PyStr :=
  let extension := (path.name.reverse.takeWhile (· ≠ ch '.')).reverse
  if extension ≠ [] ∧ extension.length + 1 < path.name.length then ch '.' :: extension else []

example : (Path.ofText "configs/./sft//base.v2.yaml").suffix = ".yaml" := by decide

example : ((Path.ofText "configs/sft.yaml").parent.joinpath "../base.yaml").str =
    "configs/../base.yaml" := by decide

end Python

end ToolAgent
