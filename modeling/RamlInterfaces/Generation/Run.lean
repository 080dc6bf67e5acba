/-
**A run from a source to files.**

The settings are checked before anything is loaded, and everything is built before the first file is
written.

* `Progress`, `Run`: the state of a run, and a step of it;
* `Run.check`, `Run.build`, `Run.write`: the stages;
* `runDescription`, `run`: runs from a description and from a source.
-/

import RamlInterfaces.Generation.Interface
import RamlInterfaces.Generation.SourceFile
import RamlInterfaces.Raml.Reading
import RamlInterfaces.Raml.Source
import RamlInterfaces.Settings.Check

namespace RamlInterfaces.Generation

open File (Path World Codecs Devices)
open Settings (Configuration)

/-- What a run has changed and reported. -/
structure Progress where
  world : World
  records : List Record := []
deriving Repr

/-- A step of a run. -/
abbrev Run (α : Type) := ExceptT Failure (StateM Progress) α

namespace Run

/-- Adds to the reports. -/
def reportAll (records : List Record) : Run Unit :=
  modify fun progress => { progress with records := progress.records ++ records }

/-- Reports a message. -/
def report (level : Level) (message : String) : Run Unit := reportAll [⟨level, message⟩]

/-- Checks the settings; what is doubtful about them is reported even if they are refused. -/
def check (configuration : Option Configuration) : Run Configuration := do
  let progress ← get
  if let some c := configuration then
    reportAll ((Settings.warnings progress.world c).map fun warning => ⟨.warning, warning.message⟩)
  ofExcept (Settings.check progress.world configuration)

/-- Builds the model of a description. -/
def build (configuration : Configuration) (description : Raml.Description) : Run Java.Model := do
  let session ← ofExcept (Session.start configuration)
  let (result, session) := (buildInterfaces description).run session
  reportAll session.records
  ofExcept (result.map fun () => session.model)

/-- Writes the source files of a model. -/
def write (devices : Devices) (codecs : Codecs) (configuration : Configuration)
    (model : Java.Model) : Run (List Path) := do
  match configuration.outputDirectory with
  | none => throw (.settings .outputMissing)
  | some directory =>
    let progress ← get
    let (world, result) :=
      writeModel devices codecs model directory configuration.sourceEncoding progress.world
    set { progress with world }
    ofExcept result

/-- Builds the model of a description and writes its source files. -/
def generate (devices : Devices) (codecs : Codecs) (configuration : Configuration)
    (description : Raml.Description) : Run (List Path) := do
  let model ← build configuration description
  let paths ← write devices codecs configuration model
  let directory := (configuration.outputDirectory.map Path.text).getD ""
  report .debug ("Wrote " ++ toString paths.length ++ " file(s) to " ++ directory)
  return paths

end Run

open Run

/-- A run from a description. -/
def runDescription (devices : Devices) (codecs : Codecs) (configuration : Option Configuration)
    (description : Raml.Description) : Run (List Path) := do
  let configuration ← check configuration
  generate devices codecs configuration description

/-- A run from a source. -/
def run (devices : Devices) (codecs : Codecs) (supply : Raml.Supply)
    (configuration : Option Configuration) (source : String) : Run (List Path) := do
  let configuration ← check configuration
  report .debug ("Loading RAML from " ++ source)
  let progress ← get
  let content ←
    ofExcept (Raml.load codecs progress.world supply configuration.sourceEncoding source)
  let description ← ofExcept (Raml.parse content)
  generate devices codecs configuration description

end RamlInterfaces.Generation
