/-
**Requests of a command line.**

* `Display`: how the results of a command are printed;
* `Request`: what a command line asks for;
* `Request.ofArguments?`: the request of a command line, unless it is misused.
-/

import RamlInterfaces.Command.Arguments
import RamlInterfaces.Command.Console
import RamlInterfaces.Settings.Resolution

namespace RamlInterfaces.Command

open Settings (Overrides)

/-- How the results of a command are printed. -/
structure Display where
  format : Format := .auto
  noColor : Bool := false
  quiet : Bool := false
  verbose : Bool := false
deriving DecidableEq, Repr

/-- The console of a display in surroundings. -/
def Display.console (display : Display) (terminal : Bool) (environment : Settings.Variables)
    (renderer : Renderer) : Console :=
  let colorful := !(display.noColor || asksForNoColor environment)
  { format := display.format.resolve terminal colorful, colorful, quiet := display.quiet,
    verbose := display.verbose, renderer }

/-- What a command does. -/
inductive Task where
  | generate (source : String) (overrides : Overrides)
  | setUp (directory package : String) (constraints createDirectory : Bool)
  | summarize (source : String)
  | listMethods (source package : String)
deriving DecidableEq, Repr

/-- What a command line asks for. -/
inductive Request where
  | help
  | version
  | perform (display : Display) (task : Task)
deriving DecidableEq, Repr

/-- The option for help. -/
def helpOption : OptionSpec := { setting := .help, long := "--help" }

/-- The option for the output directory. -/
def outputOption : OptionSpec :=
  { setting := .outputDirectory, long := "--output-dir", short := some 'd', standsFor := none }

/-- The option for the base package. -/
def packageOption : OptionSpec :=
  { setting := .package, long := "--package", short := some 'p', standsFor := none }

/-- The options that turn constraints on and off. -/
def constraintOptions : List OptionSpec :=
  [{ setting := .constraints, long := "--jsr303" },
    { setting := .constraints, long := "--no-jsr303", standsFor := some false }]

/-- The options before the name of a command. -/
def commonOptions : List OptionSpec :=
  [helpOption,
    { setting := .version, long := "--version" },
    { setting := .json, long := "--json" },
    { setting := .plain, long := "--plain" },
    { setting := .noColor, long := "--no-color" },
    { setting := .quiet, long := "--quiet", short := some 'q' },
    { setting := .verbose, long := "--verbose", short := some 'v' }]

/-- The display that options ask for. -/
def displayOf (given : Given) : Display where
  format := if given.isOn .json then .json else if given.isOn .plain then .plain else .auto
  noColor := given.isOn .noColor
  quiet := given.isOn .quiet
  verbose := given.isOn .verbose

/-- The arguments of a command with options among them: help, or what its reading makes of them. -/
def readTask? (specs : List OptionSpec) (display : Display) (arguments : List String)
    (task? : Given → Option Task) : Option Request :=
  match readArguments (helpOption :: specs) true none {} arguments with
  | none => none
  | some given =>
    if given.isOn .help then some .help else (task? given).map (.perform display)

/-- The only argument besides options. -/
def onlyArgument? (given : Given) : Option String :=
  match given.positional with
  | [argument] => some argument
  | _ => none

/-- Generating interfaces. -/
def readGenerate? (display : Display) (arguments : List String) : Option Request :=
  readTask? (outputOption :: packageOption :: constraintOptions) display arguments fun given =>
    (onlyArgument? given).map fun source =>
      .generate source
        ⟨given.text? .outputDirectory, given.text? .package, given.flag? .constraints⟩

/-- Setting up a project. -/
def readSetUp? (display : Display) (arguments : List String) : Option Request :=
  readTask?
    (outputOption :: packageOption :: { setting := .createDirectory, long := "--create-dir" } ::
      constraintOptions)
    display arguments fun given =>
      match given.positional, given.text? .outputDirectory, given.text? .package with
      | [], some directory, some package =>
        some (.setUp directory package (given.isOn .constraints) (given.isOn .createDirectory))
      | _, _, _ => none

/-- The package that methods are listed under unless another is given. -/
def listingPackage : String := "api"

/-- Inspecting a description. -/
def readInspect? (display : Display) (arguments : List String) : Option Request :=
  match readArguments [helpOption] false none {} arguments with
  | none => none
  | some given =>
    if given.isOn .help then some .help
    else
      match given.positional with
      | "info" :: rest =>
        readTask? [] display rest fun given => (onlyArgument? given).map .summarize
      | "resources" :: rest =>
        readTask? [packageOption] display rest fun given =>
          (onlyArgument? given).map fun source =>
            .listMethods source ((given.text? .package).getD listingPackage)
      | _ => none

/-- The request of a command line, unless it is misused. -/
def Request.ofArguments? (arguments : List String) : Option Request :=
  match readArguments commonOptions false none {} arguments with
  | none => none
  | some given =>
    match given.flags.find? fun flag => flag.1 == .help || flag.1 == .version with
    | some (.help, _) => some .help
    | some _ => some .version
    | none =>
      match given.positional with
      | "generate" :: rest => readGenerate? (displayOf given) rest
      | "init" :: rest => readSetUp? (displayOf given) rest
      | "inspect" :: rest => readInspect? (displayOf given) rest
      | _ => none

end RamlInterfaces.Command
