/-
**The settings of a run.**

* `Configuration`: the settings with their defaults;
* `Configuration.ofFields`: the settings that given fields make.
-/

import RamlInterfaces.File.Path
import RamlInterfaces.Raml.Coercion

namespace RamlInterfaces.Settings

open Raml (Fitted fieldOr optionalField coerceText coerceBool)

/-- The settings of a run. -/
structure Configuration where
  outputDirectory : Option File.Path := none
  basePackage : String := ""
  constraints : Bool := false
  sourceEncoding : String := "utf-8"
deriving DecidableEq, Repr

/-- A path. -/
def coercePath (value : Value) : Except Mismatch File.Path :=
  match value.string? with
  | some text => .ok (File.Path.ofText text)
  | none => .error .notPath

/-- The settings that the given fields make; other fields are left out. -/
def Configuration.ofFields (fields : Entries) : Fitted Configuration :=
  let files := Fitted.both (optionalField fields "output_directory" coercePath)
    (fieldOr fields "base_package_name" "" coerceText)
  let options := Fitted.both (fieldOr fields "use_jsr303_annotations" false coerceBool)
    (fieldOr fields "source_encoding" "utf-8" coerceText)
  (Fitted.both files options).map fun ((outputDirectory, basePackage), constraints, encoding) =>
    { outputDirectory, basePackage, constraints, sourceEncoding := encoding }

end RamlInterfaces.Settings
