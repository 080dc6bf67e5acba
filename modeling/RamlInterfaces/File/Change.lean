/-
**What is new in a tree of files.**

* `Change`: a directory or a file that was not there, or had other bytes;
* `Node.changes`, `World.changes`: the changes from one tree to another; what was taken away is not
  among them.
-/

import RamlInterfaces.File.Tree

namespace RamlInterfaces.File

/-- A directory or a file that was not there, or had other bytes, with its names from the root. -/
inductive Change where
  | directory (names : List String)
  | file (names : List String) (bytes : Bytes)
deriving DecidableEq, Repr

namespace Node

/-- The node is a file with the given bytes. -/
def isFileOf (bytes : Bytes) : Option Node → Bool
  | some (.file old) => old == bytes
  | _ => false

/-- The node is a directory. -/
def isDirectoryNode : Option Node → Bool
  | some (.directory _) => true
  | _ => false

/-- The changes to a tree at the given names from what stood there before. -/
def changes (before : Option Node) (names : List String) : Node → List Change
  | .file bytes => if isFileOf bytes before then [] else [.file names bytes]
  | .directory entries =>
    (if isDirectoryNode before then [] else [.directory names]) ++
      entryChanges before names entries
where
  /-- The changes to the entries of a directory. -/
  entryChanges (before : Option Node) (names : List String) : List (String × Node) → List Change
    | [] => []
    | (name, node) :: rest =>
      changes (before.bind fun old => old.child? name) (names ++ [name]) node ++
        entryChanges before names rest

end Node

namespace World

/-- The changes below the working directory. -/
def changes (before after : World) : List Change :=
  ((after.root.at? after.workingDirectory).map
    (Node.changes (before.root.at? after.workingDirectory) [])).getD []

/-- The changes anywhere. -/
def allChanges (before after : World) : List Change :=
  Node.changes (some before.root) [] after.root

end World

end RamlInterfaces.File
