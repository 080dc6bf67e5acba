/-
**Java types of parameters.**

A parameter with enum values has a nested enum for its type, named after the parameter.  Any other
has the type of its declared kind, primitive where it always has a value, and a repeated one a list
of that.

* `usesPrimitive`: the parameter always has one value;
* `scalarType?`: the type of the declared kind;
* `inferType`: the type of a parameter.
-/

import RamlInterfaces.Generation.Session
import RamlInterfaces.Raml.Description
import RamlInterfaces.Text.Blank

namespace RamlInterfaces.Generation

open Java

/-- A text that is given and has something besides blanks. -/
def hasText (text : Option String) : Bool :=
  match text with
  | some text => !Text.isAllBlank text
  | none => false

/-- The parameter is not repeated and always has a value. -/
def usesPrimitive (p : Raml.Parameter) : Bool :=
  !p.repeated && (p.required || hasText p.default)

/-- The class of texts. -/
def stringClass : TypeRef := .named "java.lang.String"

/-- The primitive type where the parameter always has a value, else the class that holds it. -/
def primitiveOrBoxed (p : Raml.Parameter) (type : Primitive) : TypeRef :=
  if usesPrimitive p then .primitive type else (TypeRef.primitive type).boxed

/-- The type of the declared kind of a parameter; an undeclared kind is text, and an unknown one has
no type. -/
def scalarType? (p : Raml.Parameter) : Option TypeRef :=
  match p.kind with
  | none | some "string" => some stringClass
  | some "boolean" => some (primitiveOrBoxed p .boolean)
  | some "integer" => some (primitiveOrBoxed p .long)
  | some "number" => some (primitiveOrBoxed p .double)
  | some "date" => some (.named "java.util.Date")
  | some "file" => some (.named "java.io.File")
  | some _ => none

/-- The type of the declared kind of a parameter; an unknown kind is reported. -/
def scalarType (p : Raml.Parameter) : Build TypeRef := do
  match scalarType? p with
  | some type => return type
  | none =>
    Build.report .warning ("Unsupported RAML type: " ++ p.kind.getD "")
    return .named "java.lang.Object"

/-- The type of a parameter under the name of its variable; an enum is declared in the given
interface, or in the current one. -/
def inferType (p : Raml.Parameter) (name : String) (owner : Option TypePath) : Build TypeRef := do
  match p.enumValues with
  | some (first :: rest) =>
    let session ← get
    match owner.or session.current with
    | some owner =>
      let path ← createEnum owner (typeName name) (first :: rest)
      return .declared path
    | none => throw (.model (.noInterface name))
  | _ =>
    let type ← scalarType p
    return if p.repeated then .narrow "java.util.List" [type] else type

end RamlInterfaces.Generation
