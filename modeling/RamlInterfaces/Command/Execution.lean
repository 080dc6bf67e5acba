/-
**Carrying out requests.**

A failure that the program foresees is printed, with a next step where there is one.  Any other is
written to a log.

* `Host`: the surroundings of a command;
* `Execution`: a step of a command;
* `Ending`: how a command line ends;
* `execute`: a command line carried out in a world of files.
-/

import RamlInterfaces.Command.Inspection
import RamlInterfaces.Command.Request
import RamlInterfaces.Generation.Run
import RamlInterfaces.Settings.Variables
import RamlInterfaces.Settings.Saving

namespace RamlInterfaces.Command

open File (Path World)
open Generation (Record)
open Settings (Configuration Overrides)

/-- The surroundings of a command: what it is given, and what it relies on. -/
structure Host where
  environment : Settings.Variables
  supply : Raml.Supply := {}
  platform : String := "Linux"
  terminal : Bool := false
  codecs : File.Codecs := File.Encoding.codecs
  devices : File.Devices := fun _ => {}
  renderer : Renderer := .plain

/-- How a command line ends. -/
inductive Ending where
  | misused
  | finished (exitCode : Nat) (transcript : Transcript)
deriving DecidableEq, Repr

/-- The state of a command. -/
structure Progress where
  world : World
  transcript : Transcript := {}
deriving Repr

/-- A failure, and the next step to take after it. -/
structure Stop where
  failure : Failure
  advice : Option String := none
deriving DecidableEq, Repr

/-- A step of a command. -/
abbrev Execution (α : Type) := ExceptT Stop (StateM Progress) α

namespace Execution

/-- Prints. -/
def print (transcript : Transcript) : Execution Unit :=
  modify fun progress => { progress with transcript := progress.transcript ++ transcript }

/-- A result, or a failure with the next step after it. -/
def ofResult {α : Type} (result : Except Failure α) (advice : Failure → Option String) :
    Execution α :=
  match result with
  | .ok a => pure a
  | .error failure => throw ⟨failure, advice failure⟩

/-- No next step. -/
def noAdvice : Failure → Option String := fun _ => none

/-- A run with its reports printed. -/
def performRun {α : Type} (console : Console) (run : Generation.Run α)
    (advice : Failure → Option String) : Execution α := do
  let progress ← get
  let (result, ended) := run.run { world := progress.world }
  set { progress with world := ended.world }
  print (.concat (ended.records.map console.report))
  ofResult result advice

end Execution

open Execution

/-- A missing setting is best saved for the project. -/
def settingAdvice : Failure → Option String
  | .settings .outputMissing | .settings .packageEmpty =>
    some "Create a project config: ramlgen init --output-dir DIR --package PKG"
  | _ => none

/-- Generates interfaces and prints the paths of their files. -/
def generate (host : Host) (console : Console) (source : String) (overrides : Overrides) :
    Execution Unit := do
  let progress ← get
  let configuration ←
    ofResult (Settings.resolve progress.world host.environment overrides) settingAdvice
  let paths ← performRun console
    (Generation.run host.devices host.codecs host.supply (some configuration) source) settingAdvice
  let directory := (configuration.outputDirectory.map Path.text).getD ""
  let files := paths.map Path.text
  if console.format = .json then
    let listing ← ofResult (console.response (.map
      [(.text "output_directory", textValue directory),
        (.text "files", .list (files.map textValue))])) noAdvice
    print listing
  else print (.concat (files.map Console.data))
  print (console.success
    ("Generated " ++ toString paths.length ++ " file(s) in " ++ directory))

/-- Makes a directory that is not there. -/
def createDirectory (console : Console) (directory : String) : Execution Unit := do
  let progress ← get
  let path := Path.ofText directory
  let found ← ofResult ((progress.world.exists? path).mapError fun _ => .system) noAdvice
  unless found do
    match progress.world.makeNewDirectory path with
    | (world, none) =>
      set { progress with world }
      print (console.info ("Created " ++ directory))
    | (world, some _) =>
      set { progress with world }
      throw ⟨.system, none⟩

/-- Saves the settings of a project. -/
def setUp (host : Host) (console : Console) (directory package : String)
    (constraints create : Bool) : Execution Unit := do
  let path := Path.ofText directory
  let configuration : Configuration :=
    { outputDirectory := some path, basePackage := package, constraints }
  if create then createDirectory console directory
  let progress ← get
  for warning in Settings.warnings progress.world configuration do
    print (console.warning warning.message)
  let advice : Failure → Option String
    | .settings _ =>
      match progress.world.exists? path with
      | .ok false => some "Pass --create-dir to create the output directory."
      | _ => none
    | _ => none
  let _ ← ofResult (Settings.check progress.world (some configuration)) advice
  let target := Settings.projectPath progress.world
  match Settings.save (host.devices target) progress.world configuration target with
  | (world, some failure) =>
    set { progress with world }
    throw ⟨failure, none⟩
  | (world, none) =>
    modify fun progress => { progress with world }
    print (console.success ("Configuration written to " ++ target.text))
    print (console.suggest "Generate sources: ramlgen generate <file.raml>")

/-- The encoding of descriptions that are inspected. -/
def inspectionEncoding : String := "utf-8"

/-- The description at a source. -/
def loadDescription (host : Host) (source : String) : Execution Raml.Description := do
  let progress ← get
  let content ←
    ofResult (Raml.load host.codecs progress.world host.supply inspectionEncoding source) noAdvice
  ofResult (Raml.parse content) noAdvice

/-- Prints the title and the counts of a description. -/
def summarize (host : Host) (console : Console) (source : String) : Execution Unit := do
  let description ← loadDescription host source
  let printed ← ofResult (console.response (summary description)) noAdvice
  print printed

/-- Prints the methods of the interfaces of a description. -/
def listMethods (host : Host) (console : Console) (source package : String) : Execution Unit := do
  let description ← loadDescription host source
  let model ← performRun console
    (Generation.Run.build { basePackage := package } description) noAdvice
  let rows ← ofResult (methodRows model) noAdvice
  let printed ← ofResult (console.table (methodTable description rows)) noAdvice
  print printed

/-- Carries out a task. -/
def perform (host : Host) (console : Console) : Task → Execution Unit
  | .generate source overrides => generate host console source overrides
  | .setUp directory package constraints create =>
    setUp host console directory package constraints create
  | .summarize source => summarize host console source
  | .listMethods source package => listMethods host console source package

/-- The world with a log of a failure that was not foreseen. -/
def writeCrashLog (host : Host) (world : World) : World :=
  let path := Settings.crashLogPath host.platform host.environment
  match world.makeDirectories path.parent with
  | (world, some _) => world
  | (world, none) =>
    match world.putFile path [] with
    | .ok world => world
    | .error _ => world

/-- How a command ends after a failure. -/
def conclude (host : Host) (console : Console) (progress : Progress) (stop : Stop) :
    Ending × World :=
  match stop.failure.message? with
  | some message =>
    let advice := match stop.advice with
      | some advice => console.suggest advice
      | none => {}
    (.finished stop.failure.exitCode (progress.transcript ++ console.error message ++ advice),
      progress.world)
  | none =>
    let log := (Settings.crashLogPath host.platform host.environment).text
    (.finished stop.failure.exitCode
      (progress.transcript ++ console.error ("Unexpected error. Debug log: " ++ log)),
      writeCrashLog host progress.world)

/-- The version of the program. -/
def version : String := "0.1.0"

/-- How command lines are written. -/
def usage : String :=
  "Usage: ramlgen [--version] [--json | --plain] [--no-color] [-q | --quiet] [-v | --verbose] " ++
    "COMMAND\n\n" ++
    "Commands:\n" ++
    "  generate RAML [-d DIR] [-p PKG] [--jsr303 | --no-jsr303]\n" ++
    "  init -d DIR -p PKG [--jsr303 | --no-jsr303] [--create-dir]\n" ++
    "  inspect info RAML\n" ++
    "  inspect resources RAML [-p PKG]"

/-- A command line carried out in a world of files. -/
def execute (host : Host) (world : World) (arguments : List String) : Ending × World :=
  match Request.ofArguments? arguments with
  | none => (.misused, world)
  | some .help => (.finished 0 (Console.data usage), world)
  | some .version => (.finished 0 (Console.data ("ramlgen " ++ version)), world)
  | some (.perform display task) =>
    let console := display.console host.terminal host.environment host.renderer
    match (perform host console task).run { world } with
    | (.ok (), progress) => (.finished 0 progress.transcript, progress.world)
    | (.error stop, progress) => conclude host console progress stop

end RamlInterfaces.Command
