/-
**References to Java types.**

* `Primitive`: the primitive types in use;
* `TypePath`: the place of a declared type;
* `TypeRef`: a primitive type, a class from outside, or a declared type;
* `TypeRef.text`, `TypeRef.qualifiedName`: a reference with and without its type arguments;
* `TypeRef.boxed`, `TypeRef.narrow`: the class that holds a primitive type, and a class with
  type arguments.
-/

import RamlInterfaces.Text.Runs

namespace RamlInterfaces.Java

/-- A primitive type, or the lack of a result. -/
inductive Primitive where
  | void
  | boolean
  | long
  | double
deriving DecidableEq, Repr

/-- The keyword of a primitive type. -/
def Primitive.keyword : Primitive → String
  | .void => "void"
  | .boolean => "boolean"
  | .long => "long"
  | .double => "double"

/-- The class that holds the values of a primitive type. -/
def Primitive.wrapper? : Primitive → Option String
  | .void => none
  | .boolean => some "java.lang.Boolean"
  | .long => some "java.lang.Long"
  | .double => some "java.lang.Double"

/-- The place of a declared type: the package and name of the type around it, and the names from
there inwards. -/
structure TypePath where
  package : String
  outermost : String
  inner : List String := []
deriving DecidableEq, Repr

namespace TypePath

/-- A name inside a package, which may be the nameless one. -/
def qualify (package name : String) : String :=
  if package.isEmpty then name else package ++ "." ++ name

/-- The qualified name of the outermost type. -/
def outermostName (path : TypePath) : String := qualify path.package path.outermost

/-- The qualified name of the type. -/
def qualifiedName (path : TypePath) : String :=
  path.inner.foldl (fun name inner => name ++ "." ++ inner) path.outermostName

/-- The names of the type and of the types around it. -/
def simpleName (path : TypePath) : String :=
  path.inner.foldl (fun name inner => name ++ "." ++ inner) path.outermost

/-- The name of the type itself. -/
def name (path : TypePath) : String := path.inner.getLast?.getD path.outermost

/-- The path of a type nested in this one. -/
def nested (path : TypePath) (name : String) : TypePath :=
  { path with inner := path.inner ++ [name] }

end TypePath

/-- A reference to a type; an `unnamed` one cannot be written in source text. -/
inductive TypeRef where
  | primitive (type : Primitive)
  | outside (name : String) (arguments : List TypeRef)
  | declared (path : TypePath)
  | unnamed (text : String)
deriving Repr

namespace TypeRef

/-- A class from outside without type arguments. -/
abbrev named (name : String) : TypeRef := .outside name []

instance : Inhabited TypeRef := ⟨.primitive .void⟩

/-- The qualified name without type arguments. -/
def qualifiedName : TypeRef → String
  | .primitive type => type.keyword
  | .outside name _ => name
  | .declared path => path.qualifiedName
  | .unnamed text => text

/-- The qualified name with the type arguments. -/
def text : TypeRef → String
  | .primitive type => type.keyword
  | .outside name [] => name
  | .outside name (first :: rest) =>
    name ++ "<" ++ ", ".intercalate (text first :: texts rest) ++ ">"
  | .declared path => path.qualifiedName
  | .unnamed text => text
where
  /-- The texts of type arguments. -/
  texts : List TypeRef → List String
    | [] => []
    | argument :: rest => text argument :: texts rest

/-- The type is primitive. -/
def isPrimitive : TypeRef → Bool
  | .primitive _ => true
  | _ => false

/-- The type arguments. -/
def arguments : TypeRef → List TypeRef
  | .outside _ arguments => arguments
  | _ => []

/-- The package of the outermost type. -/
def package : TypeRef → String
  | .outside name _ => String.ofList (Text.beforeLast '.' name.toList)
  | .declared path => path.package
  | .primitive _ | .unnamed _ => ""

/-- The name that an import of the type lists. -/
def importName? : TypeRef → Option String
  | .outside name _ => some name
  | .declared path => some path.outermostName
  | .primitive _ | .unnamed _ => none

/-- The name of the type where it is imported. -/
def simpleName? : TypeRef → Option String
  | .primitive type => some type.keyword
  | .outside name _ => some (String.ofList (Text.afterLast '.' name.toList))
  | .declared path => some path.simpleName
  | .unnamed _ => none

/-- The class that holds the values of the type; a class is its own. -/
def boxed : TypeRef → TypeRef
  | .primitive type =>
    match type.wrapper? with
    | some name => .named name
    | none => .primitive type
  | other => other

/-- A class with the given type arguments, all of them classes. -/
def narrow (name : String) (arguments : List TypeRef) : TypeRef :=
  .outside name (arguments.map boxed)

end TypeRef

end RamlInterfaces.Java
