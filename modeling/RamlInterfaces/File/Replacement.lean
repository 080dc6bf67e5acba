/-
**Replacing a file in one step.**

The new bytes go into a file of their own in the same directory, under a name that nothing there
has.  That file then takes the place of the target.  If it cannot, or a step before that fails, it
is closed and removed, unless the device refuses that too.

* `World.dropFile`, `World.rename`: a file removed, and one put in the place of another;
* `freshName`: a name that nothing in a directory has;
* `Request`, `Device`, `Devices`: what is asked of a device, what it refuses, and the devices of
  paths;
* `Device.create`, `Device.fill`, `Device.abandon`: the file beside the target made, filled and
  given up;
* `Device.replaceFile`: the bytes of a file replaced.
-/

import RamlInterfaces.File.Tree
import RamlInterfaces.Number.Digits

namespace RamlInterfaces.File

/-- The tree without the node at a list of names. -/
def Node.remove : List String → Node → Node
  | [], tree => tree
  | [name], .directory entries => .directory (entries.filter fun entry => entry.1 != name)
  | name :: rest, .directory entries =>
    match (Node.directory entries).child? name with
    | some inner => .directory (Node.putEntry entries name (remove rest inner))
    | none => .directory entries
  | _, .file bytes => .file bytes

namespace World

/-- The world without the file at a path. -/
def dropFile (w : World) (path : Path) : World :=
  match w.locate path with
  | .ok names => { w with root := w.root.remove names }
  | .error _ => w

/-- The world with a file put in the place of a target, which is no directory. -/
def rename (w : World) (source target : Path) : Except Obstacle World :=
  match w.contents source with
  | .error obstacle => .error obstacle
  | .ok bytes => (w.dropFile source).putFile target bytes

/-- A name for a file beside the one of a name, told apart by a number. -/
def besideName (name : String) (number : Nat) : String :=
  let digits := Number.decimal number
  "." ++ name ++ "." ++
    String.ofList (List.replicate (8 - digits.length) '0' ++ digits) ++ ".tmp"

/-- The first of so many names beside a name, from a number on, that is not taken; the last one if
all are. -/
def firstFresh (taken : List String) (name : String) : Nat → Nat → String
  | 0, number => besideName name number
  | rounds + 1, number =>
    if taken.contains (besideName name number) then firstFresh taken name rounds (number + 1)
    else besideName name number

/-- A name beside a name that is not taken. -/
def freshName (taken : List String) (name : String) : String :=
  firstFresh taken name taken.length 0

/-- The world with the bytes in a file that is there. -/
def fillFile (w : World) (path : Path) (bytes : Bytes) : World :=
  match w.putFile path bytes with
  | .ok filled => filled
  | .error _ => w

end World

/-- What is asked of a device to write or to replace a file after the place for it was found;
`release` is the closing of a file that could not be filled, with what is left to write of it. -/
inductive Request where
  | create
  | write
  | flush
  | sync
  | close
  | rename
  | release
  | remove
deriving DecidableEq, Repr

/-- A device that files are on: the requests that it refuses, and the number of bytes that a file
holds if it refuses to take more. -/
structure Device where
  refuses : Request → Bool := fun _ => false
  room : Nat := 0

/-- The device that the file at a path is on, as it is when that file is written. -/
abbrev Devices := Path → Device

namespace Device

/-- The world with a new file at a path. -/
def create (device : Device) (w : World) (path : Path) : Except Obstacle World :=
  if device.refuses .create then .error .refused else w.putFile path []

/-- The world with the bytes in an open file, which is closed then, and the request that was
refused. -/
def fill (device : Device) (w : World) (path : Path) (bytes : Bytes) : World × Option Request :=
  if device.refuses .write then (w.fillFile path (bytes.take device.room), some .write)
  else if device.refuses .flush then (w.fillFile path (bytes.take device.room), some .flush)
  else
    let filled := w.fillFile path bytes
    if device.refuses .sync then (filled, some .sync)
    else if device.refuses .close then (filled, some .close)
    else (filled, none)

/-- The world with a file put in the place of a target. -/
def rename (device : Device) (w : World) (source target : Path) : Except Obstacle World :=
  if device.refuses .rename then .error .refused else w.rename source target

/-- The world without a file. -/
def remove (device : Device) (w : World) (path : Path) : World :=
  if device.refuses .remove then w else w.dropFile path

/-- The world without a file that could not be filled.  Unless the request to close it was the one
that was refused, it is open and closed first; if that is refused, it stays. -/
def abandon (device : Device) (w : World) (path : Path) (request : Request) : World :=
  if request ≠ .close ∧ device.refuses .release then w else device.remove w path

/-- The world with the bytes of the file at a path replaced, directories made above it, and what
stood in the way if it could not be. -/
def replaceFile (device : Device) (w : World) (path : Path) (bytes : Bytes) :
    World × Option Obstacle :=
  match w.makeDirectories path.parent with
  | (w, some obstacle) => (w, some obstacle)
  | (w, none) =>
    let beside := path.parent.join ⟨0, [World.freshName (w.entryNames path.parent) path.name]⟩
    match device.create w beside with
    | .error obstacle => (w, some obstacle)
    | .ok opened =>
      match device.fill opened beside bytes with
      | (filled, some request) => (device.abandon filled beside request, some .refused)
      | (filled, none) =>
        match device.rename filled beside path with
        | .ok replaced => (replaced, none)
        | .error obstacle => (device.remove filled beside, some obstacle)

end Device

end RamlInterfaces.File
