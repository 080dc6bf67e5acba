/-
**Looking at a description without writing files.**

* `summary`: the title and the counts of a description;
* `MethodRow`, `methodRows`: a row for every method of the interfaces of a model;
* `methodTable`: the table of these rows.
-/

import RamlInterfaces.Command.Console
import RamlInterfaces.Java.Model
import RamlInterfaces.Raml.Description

namespace RamlInterfaces.Command

open Java (Model Method CompilationUnit Annotation)

/-- A text as a value. -/
def textValue (text : String) : Value := .scalar (.text text)

/-- A count as a value. -/
def countValue (count : Nat) : Value := .scalar (.int count)

/-- The title and the counts of a description. -/
def summary (description : Raml.Description) : Value :=
  let (resources, actions) := Raml.countResources description.resources
  .map
    [(.text "title", textValue description.title),
      (.text "version", textValue (description.version.getD "")),
      (.text "base_uri", textValue (description.baseUri.getD "")),
      (.text "media_type", textValue (description.mediaType.getD "")),
      (.text "top_level_resources", countValue description.resources.length),
      (.text "resources", countValue resources),
      (.text "actions", countValue actions)]

/-- A method of an interface as it is listed. -/
structure MethodRow where
  interface : String
  method : String
  verb : String
  path : String
  parameters : List String
deriving DecidableEq, Repr

/-- The headers of the columns. -/
def MethodRow.headers : List String := ["Interface", "Method", "Verb", "Path", "Parameters"]

/-- The cells of a row. -/
def MethodRow.cells (row : MethodRow) : List String :=
  [row.interface, row.method, row.verb, row.path,
    if row.parameters.isEmpty then "-" else ", ".intercalate row.parameters]

/-- The text of an element value. -/
def elementText? : Java.ElementValue → Option String
  | .scalar value => value.toText?
  | other => other.listing?

/-- The path that annotations bind an element to. -/
def boundPath (annotations : List Annotation) : Except Failure String :=
  match Java.findAnnotation? annotations "javax.ws.rs.Path" with
  | none => .ok ""
  | some mark =>
    match mark.elements.find? (·.1 == "value") with
    | some element => written (elementText? element.2)
    | none => .ok ""

/-- The text after the last dot. -/
def lastSegment (name : String) : String := String.ofList (Text.afterLast '.' name.toList)

/-- The verb that annotations bind a method to: the first of them names it. -/
def boundVerb : List Annotation → String
  | [] => "-"
  | first :: _ => lastSegment first.type.qualifiedName

/-- The row of a method of an interface that is bound to a path. -/
def methodRow (interface basePath : String) (method : Method) : Except Failure MethodRow := do
  let path ← boundPath method.annotations
  return {
    interface := lastSegment interface
    method := method.name
    verb := boundVerb method.annotations
    path := "/" ++ "/".intercalate ([basePath, path].filter fun path => !path.isEmpty)
    parameters := method.parameters.map (·.name) }

/-- The rows of the methods of a top-level type; only an interface has any. -/
def unitRows (unit : CompilationUnit) : Except Failure (List MethodRow) :=
  if unit.type.kind = .interface then do
    let basePath ← boundPath unit.type.annotations
    unit.type.methods.mapM (methodRow unit.qualifiedName basePath)
  else .ok []

/-- The rows of all methods of a model. -/
def methodRows (model : Model) : Except Failure (List MethodRow) := do
  let rows ← model.units.mapM unitRows
  return rows.flatten

/-- The table of the methods of a description. -/
def methodTable (description : Raml.Description) (rows : List MethodRow) : Table where
  title := description.title ++ " -- Methods (" ++ toString rows.length ++ ")"
  headers := MethodRow.headers
  rows := rows.map MethodRow.cells

end RamlInterfaces.Command
