/-
**A tree of files.**

* `Node`: a file with its bytes, or a directory with its entries;
* `Node.at?`, `Node.set`: looking at and setting the node at a list of names;
* `World`: a tree with a working directory;
* `World.locate`: the node that a path leads to, two dots leading up;
* `World.isFile`, `World.isDirectory`, `World.entryNames`: what stands at a path;
* `World.makeDirectories`, `World.makeNewDirectory`, `World.putFile`: directories and files made at
  a path.
-/

import RamlInterfaces.File.Encoding
import RamlInterfaces.File.Path

namespace RamlInterfaces.File

/-- A file with its bytes, or a directory with its entries. -/
inductive Node where
  | file (bytes : Bytes)
  | directory (entries : List (String × Node))
deriving Repr

namespace Node

/-- The entry of a directory. -/
def child? : Node → String → Option Node
  | .file _, _ => none
  | .directory entries, name => (entries.find? (·.1 == name)).map (·.2)

/-- The node at a list of names. -/
def at? : Node → List String → Option Node
  | node, [] => some node
  | node, name :: rest =>
    match node.child? name with
    | some inner => at? inner rest
    | none => none

/-- The entries with the one of a name set. -/
def putEntry (entries : List (String × Node)) (name : String) (node : Node) :
    List (String × Node) :=
  match entries with
  | [] => [(name, node)]
  | (first, old) :: rest =>
    if first = name then (first, node) :: rest else (first, old) :: putEntry rest name node

/-- The tree with a node set at a list of names; directories on the way are made where nothing
stands. -/
def set (node : Node) : List String → Node → Node
  | [], _ => node
  | name :: rest, tree =>
    let entries := match tree with
      | .directory entries => entries
      | .file _ => []
    let inner := ((Node.directory entries).child? name).getD (.directory [])
    .directory (putEntry entries name (set node rest inner))

/-- The node is a file. -/
def isFile : Node → Bool
  | .file _ => true
  | .directory _ => false

end Node

/-- Why a path leads nowhere, or nothing can be put there. -/
inductive Obstacle where
  | missing
  | notDirectory
  | nameTooLong
  | taken
  | refused
deriving DecidableEq, Repr

/-- A tree of files with a working directory, given by its names from the root. -/
structure World where
  root : Node
  workingDirectory : List String
  readOnly : Bool := false
deriving Repr

namespace World

/-- The greatest number of bytes in a name. -/
def nameLimit : Nat := 255

/-- The name is longer than a file system allows. -/
def isTooLong (name : String) : Bool := nameLimit < name.utf8ByteSize

/-- The names from the root of what a walk from a place leads to; two dots lead up, and every name
but the last must be that of a directory. -/
def walk (root : Node) (place : List String) : List String → Except Obstacle (List String)
  | [] => .ok place
  | name :: rest =>
    match root.at? place with
    | none => .error .missing
    | some (.file _) => .error .notDirectory
    | some (.directory _) =>
      if name = ".." then walk root place.dropLast rest
      else if '\x00' ∈ name.toList then .error .missing
      else if isTooLong name then .error .nameTooLong
      else walk root (place ++ [name]) rest

/-- The names from the root of what a path leads to, whether anything stands there or not. -/
def locate (w : World) (path : Path) : Except Obstacle (List String) :=
  walk w.root (if path.isAbsolute then [] else w.workingDirectory) path.names

/-- The node at a path. -/
def node? (w : World) (path : Path) : Except Obstacle Node :=
  match w.locate path with
  | .error obstacle => .error obstacle
  | .ok names =>
    match w.root.at? names with
    | some node => .ok node
    | none => .error .missing

/-- What a look at a path finds: a node or nothing; it fails only for a name that is too long. -/
def look (w : World) (path : Path) : Except Obstacle (Option Node) :=
  match w.node? path with
  | .ok node => .ok (some node)
  | .error .nameTooLong => .error .nameTooLong
  | .error _ => .ok none

/-- A file stands at the path. -/
def isFile (w : World) (path : Path) : Except Obstacle Bool :=
  (w.look path).map fun node => (node.map Node.isFile).getD false

/-- A directory stands at the path. -/
def isDirectory (w : World) (path : Path) : Except Obstacle Bool :=
  (w.look path).map fun node => (node.map fun node => !node.isFile).getD false

/-- Something stands at the path. -/
def exists? (w : World) (path : Path) : Except Obstacle Bool := (w.look path).map Option.isSome

/-- The names of the entries of the directory at a path. -/
def entryNames (w : World) (path : Path) : List String :=
  match w.node? path with
  | .ok (.directory entries) => entries.map (·.1)
  | _ => []

/-- The bytes of the file at a path. -/
def contents (w : World) (path : Path) : Except Obstacle Bytes :=
  match w.node? path with
  | .ok (.file bytes) => .ok bytes
  | .ok (.directory _) => .error .notDirectory
  | .error obstacle => .error obstacle

/-- The world with a directory at a path whose parent is there. -/
def makeDirectory (w : World) (path : Path) : Except Obstacle World :=
  match w.locate path with
  | .error obstacle => .error obstacle
  | .ok names =>
    match w.root.at? names with
    | some (.directory _) => .ok w
    | some (.file _) => .error .notDirectory
    | none => .ok { w with root := Node.set (.directory []) names w.root }

/-- The world with directories at a path and at all paths above it, and whether all could be
made. -/
def makeDirectories (w : World) (path : Path) : World × Option Obstacle :=
  go w [] path.names
where
  /-- The directories made one below the other. -/
  go (w : World) (above : List String) : List String → World × Option Obstacle
    | [] => (w, none)
    | name :: rest =>
      match w.makeDirectory { path with names := above ++ [name] } with
      | .ok w => go w (above ++ [name]) rest
      | .error obstacle => (w, some obstacle)

/-- The world with a new directory at a path and with directories at all paths above it, and what
stands in the way, if anything does. -/
def makeNewDirectory (w : World) (path : Path) : World × Option Obstacle :=
  match w.makeDirectories path.parent with
  | (w, some obstacle) => (w, some obstacle)
  | (w, none) =>
    match w.look path, w.makeDirectory path with
    | .ok none, .ok made => (made, none)
    | .ok none, .error obstacle => (w, some obstacle)
    | .ok (some _), _ => (w, some .taken)
    | .error obstacle, _ => (w, some obstacle)

/-- The world with a file at a path, in a directory that is there. -/
def putFile (w : World) (path : Path) (bytes : Bytes) : Except Obstacle World :=
  match w.locate path with
  | .error obstacle => .error obstacle
  | .ok names =>
    match w.root.at? names.dropLast, w.root.at? names with
    | some (.directory _), some (.directory _) => .error .notDirectory
    | some (.directory _), _ => .ok { w with root := Node.set (.file bytes) names w.root }
    | some (.file _), _ => .error .notDirectory
    | none, _ => .error .missing

/-- The path of the working directory. -/
def workingPath (w : World) : Path := ⟨1, w.workingDirectory⟩

end World

end RamlInterfaces.File
