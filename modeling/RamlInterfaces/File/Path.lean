/-
**Paths of files.**

A path is a list of names, from the root or from the working directory.  Empty names and single
dots are left out; two dots stay.

* `Path`: the paths;
* `Path.ofText`, `Path.text`: reading and writing them;
* `Path.join`, `Path.parent`, `Path.name`: paths below and above.
-/

import RamlInterfaces.Text.Runs

namespace RamlInterfaces.File

/-- A path; `slashes` is the number of slashes in front, none for a path from the working
directory. -/
structure Path where
  slashes : Nat
  names : List String
deriving DecidableEq, Repr

namespace Path

/-- The names of a text between slashes that count. -/
def namesOf (text : String) : List String :=
  ((Text.pieces '/' text.toList).map String.ofList).filter fun name =>
    !name.isEmpty && name != "."

/-- The slashes in front of a text that count: none, one, or exactly two. -/
def slashesOf (text : String) : Nat :=
  let count := (text.toList.takeWhile (· == '/')).length
  if count ≤ 2 then count else 1

/-- The path that a text denotes. -/
def ofText (text : String) : Path := ⟨slashesOf text, namesOf text⟩

/-- The path as a text; the empty one is a dot. -/
def text (path : Path) : String :=
  let names := "/".intercalate path.names
  if path.slashes = 0 then if path.names.isEmpty then "." else names
  else String.ofList (List.replicate path.slashes '/') ++ names

/-- The path starts at the root. -/
def isAbsolute (path : Path) : Bool := path.slashes != 0

/-- The other path taken from this one, unless it starts at the root. -/
def join (path other : Path) : Path :=
  if other.isAbsolute then other else { path with names := path.names ++ other.names }

/-- The path without its last name. -/
def parent (path : Path) : Path := { path with names := path.names.dropLast }

/-- The last name. -/
def name (path : Path) : String := path.names.getLast?.getD ""

end Path

end RamlInterfaces.File
