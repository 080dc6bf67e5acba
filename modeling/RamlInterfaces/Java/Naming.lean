/-
**Names of types in one compilation unit.**

The type of the unit and the types nested in it own their simple names.  Any other simple name
belongs to the first type that is named by it, which is then imported where that is needed.  Every
further type of the same simple name is written with its package.

* `Naming`: the owners of simple names and the imports so far;
* `Naming.ofUnit`: the names that the types of a unit own;
* `Namer`: a step that may name types;
* `nameType`: the spelling of a type.
-/

import RamlInterfaces.Failure
import RamlInterfaces.Java.Model

namespace RamlInterfaces.Java

/-- The owners of simple names in a unit, and its imports. -/
structure Naming where
  package : String
  unit : String
  owners : List (String × String) := []
  imports : List String := []
deriving Repr

/-- The owners of simple names with those of a type at a path and of all types nested in it. -/
def claimNames (owners : List (String × String)) (qualifiedName : String) :
    TypeDecl → List (String × String)
  | ⟨name, _, _, _, _, nested, _⟩ => claimNested (putNamed owners name qualifiedName) nested
where
  /-- The owners with those of nested types one after the other. -/
  claimNested (owners : List (String × String)) : List TypeDecl → List (String × String)
    | [] => owners
    | inner :: rest =>
      claimNested (claimNames owners (qualifiedName ++ "." ++ inner.name) inner) rest

/-- The names that the types of a unit own; the unit may be a type that is nested in others. -/
def Naming.ofUnit (path : TypePath) (decl : TypeDecl) : Naming where
  package := path.package
  unit := path.qualifiedName
  owners := claimNames [] path.qualifiedName decl

/-- A step that may name types. -/
abbrev Namer (α : Type) := StateT Naming (Except Failure) α

/-- The simple name that an import gives to a type. -/
def importedName (importName : String) : String :=
  String.ofList (Text.afterLast '.' importName.toList)

/-- The types of the package need no import. -/
def Naming.isImplicit (naming : Naming) (importName : String) : Bool :=
  let package := String.ofList (Text.beforeLast '.' importName.toList)
  package == "java.lang" || package == naming.package

/-- The naming with an owner for a simple name, unless it has one. -/
def Naming.claim (naming : Naming) (name importName : String) : Naming :=
  if naming.owners.any (·.1 == name) then naming
  else { naming with owners := naming.owners ++ [(name, importName)] }

/-- The naming with an import. -/
def Naming.addImport (naming : Naming) (importName : String) : Naming :=
  if naming.imports.contains importName then naming
  else { naming with imports := importName :: naming.imports }

/-- The owner of a simple name. -/
def Naming.owner? (naming : Naming) (name : String) : Option String :=
  (naming.owners.find? (·.1 == name)).map (·.2)

/-- The spelling of a class without its type arguments. -/
def nameClass (type : TypeRef) : Namer String := do
  match type.importName?, type.simpleName? with
  | some importName, some simpleName =>
    let name := importedName importName
    modify fun naming => naming.claim name importName
    let naming ← get
    if naming.owner? name = some importName then
      unless importName = naming.unit || naming.isImplicit importName do
        set (naming.addImport importName)
      return simpleName
    else return type.qualifiedName
  | _, _ => throw (.model (.unnameable type.text))

/-- The spelling of a type. -/
def nameType : TypeRef → Namer String
  | .primitive type => pure type.keyword
  | .outside name arguments => do
    let base ← nameClass (.outside name arguments)
    match arguments with
    | [] => return base
    | first :: rest =>
      let spelled ← nameType first
      let others ← nameTypes rest
      return base ++ "<" ++ ", ".intercalate (spelled :: others) ++ ">"
  | .declared path => nameClass (.declared path)
  | .unnamed text => nameClass (.unnamed text)
where
  /-- The spellings of type arguments. -/
  nameTypes : List TypeRef → Namer (List String)
    | [] => pure []
    | type :: rest => do
      let spelled ← nameType type
      let others ← nameTypes rest
      return spelled :: others

/-- Names in alphabetical order with one more in its place. -/
def insertName (name : String) : List String → List String
  | [] => [name]
  | first :: rest => if name < first then name :: first :: rest else first :: insertName name rest

theorem mem_insertName {name other : String} {names : List String} :
    other ∈ insertName name names ↔ other = name ∨ other ∈ names := by
  induction names with
  | nil => simp [insertName]
  | cons first rest ih =>
    unfold insertName
    split
    · exact List.mem_cons
    · rw [List.mem_cons, ih, List.mem_cons]
      exact or_left_comm

/-- The imports in alphabetical order. -/
def Naming.sortedImports (naming : Naming) : List String := naming.imports.foldr insertName []

end RamlInterfaces.Java
