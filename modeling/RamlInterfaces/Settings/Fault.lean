/-
**Faults of the settings.**

* `Fault`: why settings cannot be read or used;
* `Fault.message`: the wording.
-/

import RamlInterfaces.Detail

namespace RamlInterfaces.Settings

/-- Why a file of settings is no settings. -/
inductive FileFault where
  | notJson
  | notText
  | notObject
deriving DecidableEq, Repr

/-- Why settings cannot be read or used. -/
inductive Fault where
  | unreadableFile (path : String) (reason : FileFault)
  | unfit (details : List Detail)
  | missing
  | outputMissing
  | outputNotDirectory (path : String)
  | outputReadOnly (path : String)
  | packageEmpty
  | packageMalformed (package : String)
  | packageReserved (package : String) (words : List String)
deriving DecidableEq, Repr

/-- The wording of the reason. -/
def FileFault.message : FileFault → String
  | .notJson => "<JSONDecodeError>"
  | .notText => "<UnicodeError>"
  | .notObject => "expected a JSON object"

/-- The wording of a fault. -/
def Fault.message : Fault → String
  | .unreadableFile path reason =>
    "Invalid project config at " ++ path ++ ": " ++ reason.message
  | .unfit _ => "Invalid project config: <ValidationError>"
  | .missing => "configuration can't be null"
  | .outputMissing => "outputDirectory can't be null"
  | .outputNotDirectory path => path ++ " is not a pre-existing directory"
  | .outputReadOnly path => path ++ " can't be written to"
  | .packageEmpty => "base package name can't be empty"
  | .packageMalformed package => "'" ++ package ++ "' is not a valid Java package name"
  | .packageReserved package words =>
    "'" ++ package ++ "' is not a valid Java package name (reserved word: " ++
      ", ".intercalate words ++ ")"

/-- The fields that did not fit. -/
def Fault.details : Fault → List Detail
  | .unfit details => details
  | _ => []

end RamlInterfaces.Settings
