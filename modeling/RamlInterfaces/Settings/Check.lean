/-
**Checks of the settings before a run.**

* `usableDirectory`: the output directory, if files can be written to it;
* `checkPackage`: refuses a text that names no package of Java;
* `warnings`: what is doubtful about usable settings;
* `check`: refuses settings that a run cannot work with.
-/

import RamlInterfaces.Failure
import RamlInterfaces.File.Tree
import RamlInterfaces.Java.Identifier
import RamlInterfaces.Settings.Configuration
import RamlInterfaces.Text.Blank

namespace RamlInterfaces.Settings

open File (Path World)

/-- The output directory, if files can be written to it. -/
def usableDirectory (world : World) (c : Configuration) : Except Failure Path :=
  match c.outputDirectory with
  | none => .error (.settings .outputMissing)
  | some directory =>
    match world.isDirectory directory with
    | .error _ => .error .system
    | .ok false => .error (.settings (.outputNotDirectory directory.text))
    | .ok true =>
      if world.readOnly then .error (.settings (.outputReadOnly directory.text)) else .ok directory

/-- The text without a line feed at its end. -/
def withoutFinalLineFeed (cs : List Char) : List Char :=
  match cs.getLast? with
  | some '\n' => cs.dropLast
  | _ => cs

/-- The segments of a package. -/
def segments (package : List Char) : List (List Char) := Text.pieces '.' package

/-- A sequence of identifiers with dots between them; a line feed may follow the last. -/
def isPackageForm (package : List Char) : Bool :=
  (segments (withoutFinalLineFeed package)).all Java.isIdentifier

/-- The segments of a package that are reserved words. -/
def reservedSegments (package : List Char) : List String :=
  ((segments package).filter Java.isReserved).map String.ofList

/-- Refuses a text that names no package of Java. -/
def checkPackage (package : String) : Except Fault Unit :=
  if Text.isAllBlank package then .error .packageEmpty
  else if !isPackageForm package.toList then .error (.packageMalformed package)
  else
    match reservedSegments package.toList with
    | [] => .ok ()
    | words => .error (.packageReserved package words)

/-- What is doubtful about settings. -/
inductive Warning where
  | directoryNotEmpty (path : String)
deriving DecidableEq, Repr

/-- The wording of a warning. -/
def Warning.message : Warning → String
  | .directoryNotEmpty path =>
    "Directory " ++ path ++ " is not empty, generation will work but pre-existing files may " ++
      "remain and produce unexpected results"

/-- What is doubtful about usable settings: files that are there may be written over. -/
def warnings (world : World) (c : Configuration) : List Warning :=
  match usableDirectory world c with
  | .error _ => []
  | .ok directory =>
    if (world.entryNames directory).isEmpty then [] else [.directoryNotEmpty directory.text]

/-- The settings, if a run can work with them. -/
def check (world : World) (configuration : Option Configuration) :
    Except Failure Configuration := do
  match configuration with
  | none => throw (.settings .missing)
  | some c =>
    let _ ← usableDirectory world c
    match checkPackage c.basePackage with
    | .error fault => throw (.settings fault)
    | .ok () => return c

end RamlInterfaces.Settings
