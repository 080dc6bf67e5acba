/-
**The settings that are in force.**

A setting of the command line goes before one of the environment, that before one of the project
file, and that before the default.

* `Overrides`: the settings of the command line;
* `readProject`: the fields of the project file;
* `resolve`: the settings that are in force.
-/

import RamlInterfaces.Failure
import RamlInterfaces.File.Tree
import RamlInterfaces.Json.Reader
import RamlInterfaces.Settings.Configuration
import RamlInterfaces.Settings.Variables
import RamlInterfaces.Text.Blank
import RamlInterfaces.Text.Lowercase

namespace RamlInterfaces.Settings

open File (Path World Encoding)

/-- The settings of the command line. -/
structure Overrides where
  outputDirectory : Option String := none
  basePackage : Option String := none
  constraints : Option Bool := none
deriving DecidableEq, Repr

/-- The name of the project file. -/
def projectFileName : String := "ramlgen.json"

/-- The path of the project file in the working directory. -/
def projectPath (world : World) : Path := world.workingPath.join (Path.ofText projectFileName)

/-- The fields that the bytes of a project file hold. -/
def readFields (bytes : File.Bytes) : Except FileFault Entries :=
  match Encoding.utf8.decode? bytes with
  | none => .error .notText
  | some text =>
    match Json.read? text with
    | none => .error .notJson
    | some (.map fields) => .ok fields
    | some _ => .error .notObject

/-- The fields of the project file at a path; none if there is no file. -/
def readProject (world : World) (path : Path) : Except Failure Entries :=
  match world.isFile path with
  | .error _ => .error .system
  | .ok false => .ok []
  | .ok true =>
    match world.contents path with
    | .error _ => .error .system
    | .ok bytes =>
      match readFields bytes with
      | .ok fields => .ok fields
      | .error reason => .error (.settings (.unreadableFile path.text reason))

/-- The words that turn a setting of the environment on. -/
def affirmations : List String := ["1", "true", "yes", "on"]

/-- A setting of the environment is on. -/
def isAffirmed (value : String) : Bool := affirmations.contains (Text.lower (Text.trim value))

/-- The settings with those of the environment put over them. -/
def withVariables (environment : Variables) (c : Configuration) : Configuration :=
  { c with
    outputDirectory :=
      ((environment.filled? "RAMLGEN_OUTPUT_DIR").map Path.ofText).or c.outputDirectory
    basePackage := (environment.filled? "RAMLGEN_BASE_PACKAGE").getD c.basePackage
    constraints := ((environment.filled? "RAMLGEN_JSR303").map isAffirmed).getD c.constraints }

/-- The settings with those of the command line put over them. -/
def withOverrides (overrides : Overrides) (c : Configuration) : Configuration :=
  { c with
    outputDirectory := (overrides.outputDirectory.map Path.ofText).or c.outputDirectory
    basePackage := overrides.basePackage.getD c.basePackage
    constraints := overrides.constraints.getD c.constraints }

/-- The settings that are in force, with the project file at a path. -/
def resolveAt (path : Path) (world : World) (environment : Variables) (overrides : Overrides) :
    Except Failure Configuration := do
  let fields ← readProject world path
  match Configuration.ofFields fields with
  | .error details => throw (.settings (.unfit details))
  | .ok configuration => return withOverrides overrides (withVariables environment configuration)

/-- The settings that are in force. -/
def resolve (world : World) (environment : Variables) (overrides : Overrides) :
    Except Failure Configuration :=
  resolveAt (projectPath world) world environment overrides

end RamlInterfaces.Settings
