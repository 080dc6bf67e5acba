/-
**Declarations of Java types.**

* `Kind`: interface, enum or annotation type;
* `Parameter`, `Method`, `TypeDecl`: what a type consists of;
* `TypeDecl.at?`, `TypeDecl.modify`: looking at and changing a type nested in another.
-/

import RamlInterfaces.Java.Annotation

namespace RamlInterfaces.Java

/-- The kinds of declared types. -/
inductive Kind where
  | interface
  | enum
  | annotationType
deriving DecidableEq, Repr

/-- The keyword that declares a type of the kind. -/
def Kind.keyword : Kind → String
  | .interface => "interface"
  | .enum => "enum"
  | .annotationType => "@interface"

/-- The kind of a keyword. -/
def Kind.ofKeyword? (keyword : String) : Option Kind :=
  [Kind.interface, .enum, .annotationType].find? (·.keyword == keyword)

/-- A parameter of a method. -/
structure Parameter where
  name : String
  type : TypeRef
  annotations : List Annotation := []
deriving Repr

/-- A method without a body. -/
structure Method where
  name : String
  returnType : TypeRef
  parameters : List Parameter := []
  annotations : List Annotation := []
  doc : DocComment := {}
deriving Repr

/-- An enum constant and the literal it stands for. -/
structure Constant where
  name : String
  literal : String
deriving DecidableEq, Repr

/-- A declared type. -/
structure TypeDecl where
  name : String
  kind : Kind
  annotations : List Annotation := []
  doc : DocComment := {}
  methods : List Method := []
  nested : List TypeDecl := []
  constants : List Constant := []
deriving Repr

namespace TypeDecl

/-- The type at a path of names inside this one. -/
def at? : TypeDecl → List String → Option TypeDecl
  | decl, [] => some decl
  | decl, name :: rest =>
    match decl.nested.find? (·.name == name) with
    | some inner => at? inner rest
    | none => none

/-- The type with the one at a path of names inside it changed. -/
def modify (change : TypeDecl → TypeDecl) : List String → TypeDecl → TypeDecl
  | [], decl => change decl
  | name :: rest, decl =>
    { decl with
      nested := decl.nested.map fun inner =>
        if inner.name = name then modify change rest inner else inner }

end TypeDecl

end RamlInterfaces.Java
