/-
**The program.**

The parts of the file system that a command looks at are read into a tree first.  The command is
carried out on that tree, and what is new in it is then written back.

* `observe`: a tree with what stands at a path of the file system;
* `observeTask`: a tree with all that a task looks at;
* `main`: the program.
-/

import RamlInterfaces.Command.Execution
import RamlInterfaces.File.Change

namespace RamlInterfaces.Command

open File (Path World)

/-- The path from the root that a path leads to. -/
def absolutePath (world : World) (path : Path) : Path := world.workingPath.join path

/-- The tree with what stands at a path, where its parent is a directory; of the entries of a
directory only the kinds are read. -/
def observeNode (world : World) (path : Path) : IO World := do
  let place := (← IO.currentDir) / path.text
  if ← place.isDir then
    let (world, _) := world.makeDirectories path
    (← place.readDir).foldlM (fun (world : World) entry => do
      let inner := path.join ⟨0, [entry.fileName]⟩
      if ((world.exists? inner).toOption).getD true then return world
      if ← entry.path.isDir then return (world.makeDirectories inner).1
      return ((world.putFile inner []).toOption).getD world) world
  else if ← place.pathExists then
    let bytes ← IO.FS.readBinFile place
    return ((world.putFile path bytes.toList).toOption).getD world
  else return world

/-- The tree with what stands at a path and at all paths above it. -/
def observe (world : World) (path : Path) : IO World := do
  let full := absolutePath world path
  (List.range (full.names.length + 1)).foldlM
    (fun world count => observeNode world { full with names := full.names.take count }) world

/-- The tree with all that writing into a directory looks at. -/
def observeOutput (world : World) (directory : Path) (package : String) : IO World := do
  let world ← observe world directory
  let world ← observe world (Generation.packageDirectory directory (package ++ ".resource"))
  observe world (Generation.packageDirectory directory (package ++ ".support"))

/-- The tree with a source of a description, if it is a file. -/
def observeSource (world : World) (source : String) : IO World :=
  match Raml.Origin.ofText source with
  | .file path => observe world (Path.ofText path)
  | _ => pure world

/-- The tree with all that a task looks at. -/
def observeTask (environment : Settings.Variables) (world : World) : Task → IO World
  | .generate source overrides => do
    let world ← observeSource world source
    match Settings.resolve world environment overrides with
    | .error _ => return world
    | .ok configuration =>
      match configuration.outputDirectory with
      | none => return world
      | some directory => observeOutput world directory configuration.basePackage
  | .setUp directory _ _ _ => observe world (Path.ofText directory)
  | .summarize source | .listMethods source _ => observeSource world source

/-- The source that a task reads. -/
def Task.source? : Task → Option String
  | .generate source _ | .summarize source | .listMethods source _ => some source
  | .setUp _ _ _ _ => none

/-- All that is left of a stream. -/
partial def readRest (stream : IO.FS.Stream) (sofar : ByteArray) : IO ByteArray := do
  let chunk ← stream.read 65536
  if chunk.isEmpty then return sofar else readRest stream (sofar ++ chunk)

/-- What the standard input gives to a task. -/
def readStandardInput (task : Task) : IO Raml.Input := do
  if task.source? != some "-" then return .text ""
  let input ← IO.getStdin
  if ← input.isTty then return .terminal
  let bytes ← readRest input .empty
  return match String.fromUTF8? bytes with
    | some content => .text content
    | none => .failing "the text is not UTF-8"

/-- The variables of the environment that the program looks at. -/
def readVariables : IO Settings.Variables := do
  let names := ["HOME", "XDG_DATA_HOME", "NO_COLOR", "TERM", "RAMLGEN_OUTPUT_DIR",
    "RAMLGEN_BASE_PACKAGE", "RAMLGEN_JSR303"]
  names.filterMapM fun name => do
    return (← IO.getEnv name).map fun value => (name, value)

/-- Writes back what is new. -/
def writeBack (change : File.Change) : IO Unit := do
  match change with
  | .directory names => IO.FS.createDirAll (Path.text ⟨1, names⟩)
  | .file names bytes =>
    IO.FS.writeBinFile (Path.text ⟨1, names⟩) (ByteArray.mk bytes.toArray)

/-- Prints how a command line ended, and gives its exit code. -/
def report : Ending → IO UInt32
  | .misused => do
    IO.eprintln usage
    return 2
  | .finished exitCode transcript => do
    IO.print transcript.output
    IO.eprint transcript.errors
    return UInt32.ofNat exitCode

/-- Carries out a command line on the file system. -/
def runProgram (arguments : List String) : IO UInt32 := do
  let environment ← readVariables
  let directory := Path.ofText (← IO.currentDir).toString
  let start : World := { root := .directory [], workingDirectory := directory.names }
  let world ← observe start directory
  let world ← observeNode world (Settings.projectPath world)
  let world ← observe world (Settings.logDirectory "Linux" environment)
  let terminal ← (← IO.getStdout).isTty
  match Request.ofArguments? arguments with
  | some (.perform _ task) =>
    let world ← observeTask environment world task
    let host : Host := { environment, supply := { input := ← readStandardInput task }, terminal }
    let (ending, after) := execute host world arguments
    (World.allChanges world after).forM writeBack
    report ending
  | _ => report (execute { environment, terminal } world arguments).1

end RamlInterfaces.Command

/-- The program: it carries out its arguments. -/
def main (arguments : List String) : IO UInt32 := RamlInterfaces.Command.runProgram arguments
