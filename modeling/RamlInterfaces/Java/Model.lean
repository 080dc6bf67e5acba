/-
**A model of Java types.**

The model refuses what Java refuses: two types of one qualified name at the top or inside one type,
a nested type with the name of the one around it, two parameters of one name, two constants of one
name, and constants outside enums.  Everything else is left to the caller.

* `CompilationUnit`, `Model`: the top-level types with their packages;
* `Model.define`, `Model.nest`, `Model.addMethod`, `Model.addParameter`, `Model.addConstant`: the
  declarations;
* `Site`, `Model.annotate`, `Model.setElement`: annotations of a type, method or parameter.
-/

import RamlInterfaces.Java.Declaration
import RamlInterfaces.Java.Fault

namespace RamlInterfaces.Java

/-- A top-level type and its package. -/
structure CompilationUnit where
  package : String
  type : TypeDecl
deriving Repr

namespace CompilationUnit

/-- The path of the top-level type. -/
def path (unit : CompilationUnit) : TypePath := ⟨unit.package, unit.type.name, []⟩

/-- The qualified name of the top-level type. -/
def qualifiedName (unit : CompilationUnit) : String := unit.path.qualifiedName

end CompilationUnit

/-- The top-level types in the order of their declaration. -/
structure Model where
  units : List CompilationUnit := []
deriving Repr

/-- The place of a method: its type, and its number among the methods of the type. -/
structure MethodPath where
  type : TypePath
  index : Nat
deriving DecidableEq, Repr

/-- The place of a parameter: its method, and its number among the parameters. -/
structure ParameterPath where
  method : MethodPath
  index : Nat
deriving DecidableEq, Repr

/-- The place of an element that can be annotated. -/
inductive Site where
  | type (path : TypePath)
  | method (path : MethodPath)
  | parameter (path : ParameterPath)
deriving DecidableEq, Repr

namespace Model

/-- The top-level type of a qualified name. -/
def get? (m : Model) (qualifiedName : String) : Option TypeDecl :=
  (m.units.find? (·.qualifiedName == qualifiedName)).map (·.type)

/-- The unit is the one that a path leads into. -/
def holds (path : TypePath) (unit : CompilationUnit) : Bool :=
  unit.package == path.package && unit.type.name == path.outermost

/-- The type at a path. -/
def type? (m : Model) (path : TypePath) : Option TypeDecl :=
  (m.units.find? (holds path)).bind fun unit => unit.type.at? path.inner

/-- The method at a path. -/
def method? (m : Model) (path : MethodPath) : Option Method :=
  (m.type? path.type).bind fun decl => decl.methods[path.index]?

/-- The model with the type at a path changed. -/
def modifyType (m : Model) (path : TypePath) (change : TypeDecl → TypeDecl) : Model :=
  { units := m.units.map fun unit =>
      if holds path unit then { unit with type := unit.type.modify change path.inner } else unit }

/-- The model with the method at a path changed. -/
def modifyMethod (m : Model) (path : MethodPath) (change : Method → Method) : Model :=
  m.modifyType path.type fun decl =>
    { decl with methods := decl.methods.modify path.index change }

/-- The model with one more top-level type. -/
def define (m : Model) (package name : String) (kind : Kind) : Except Fault Model :=
  let unit : CompilationUnit := ⟨package, { name, kind }⟩
  if m.units.any fun other => other.qualifiedName == unit.qualifiedName then
    .error (.typeDefined unit.qualifiedName)
  else .ok { units := m.units ++ [unit] }

/-- The model with one more type nested in the type at a path. -/
def nest (m : Model) (path : TypePath) (name : String) (kind : Kind) : Except Fault Model :=
  let taken := match m.type? path with
    | some decl => decl.nested.any fun inner => inner.name == name
    | none => false
  if taken || name == path.name then .error (.typeDefined (path.qualifiedName ++ "." ++ name))
  else .ok (m.modifyType path fun decl => { decl with nested := decl.nested ++ [{ name, kind }] })

/-- The number of methods of the type at a path. -/
def methodCount (m : Model) (path : TypePath) : Nat :=
  ((m.type? path).map (·.methods.length)).getD 0

/-- The methods of a name of the type at a path. -/
def methodsNamed (m : Model) (path : TypePath) (name : String) : List Method :=
  match m.type? path with
  | some decl => decl.methods.filter (·.name == name)
  | none => []

/-- The model with one more method, and the place of that method; overloads are allowed. -/
def addMethod (m : Model) (path : TypePath) (name : String) (returnType : TypeRef) :
    MethodPath × Model :=
  (⟨path, m.methodCount path⟩,
    m.modifyType path fun decl => { decl with methods := decl.methods ++ [{ name, returnType }] })

/-- The model with one more parameter, and the place of that parameter. -/
def addParameter (m : Model) (path : MethodPath) (type : TypeRef) (name : String) :
    Except Fault (ParameterPath × Model) :=
  match m.method? path with
  | none => .error (.parameterUnnamed "")
  | some method =>
    if name.isEmpty then .error (.parameterUnnamed method.name)
    else if method.parameters.any (·.name == name) then
      .error (.parameterDefined name method.name)
    else
      .ok (⟨path, method.parameters.length⟩,
        m.modifyMethod path fun method =>
          { method with parameters := method.parameters ++ [{ name, type }] })

/-- The model with one more enum constant. -/
def addConstant (m : Model) (path : TypePath) (name literal : String) : Except Fault Model :=
  match m.type? path with
  | none => .error (.notEnum path.qualifiedName)
  | some decl =>
    if decl.kind ≠ .enum then .error (.notEnum path.qualifiedName)
    else if decl.constants.any (·.name == name) then
      .error (.constantDefined name path.qualifiedName)
    else .ok (m.modifyType path fun decl =>
      { decl with constants := decl.constants ++ [⟨name, literal⟩] })

/-- The annotations at a site. -/
def annotations (m : Model) : Site → List Annotation
  | .type path => ((m.type? path).map (·.annotations)).getD []
  | .method path => ((m.method? path).map (·.annotations)).getD []
  | .parameter path =>
    (((m.method? path.method).bind fun method => method.parameters[path.index]?).map
      (·.annotations)).getD []

/-- The model with the annotations at a site changed. -/
def modifyAnnotations (m : Model) (change : List Annotation → List Annotation) : Site → Model
  | .type path => m.modifyType path fun decl =>
      { decl with annotations := change decl.annotations }
  | .method path => m.modifyMethod path fun method =>
      { method with annotations := change method.annotations }
  | .parameter path => m.modifyMethod path.method fun method =>
      { method with
        parameters := method.parameters.modify path.index fun parameter =>
          { parameter with annotations := change parameter.annotations } }

/-- The model with one more annotation at a site. -/
def annotate (m : Model) (site : Site) (mark : Annotation) : Model :=
  m.modifyAnnotations (· ++ [mark]) site

/-- The model with an element set of the annotation of a number at a site. -/
def setElement (m : Model) (site : Site) (index : Nat) (name : String) (value : ElementValue) :
    Model :=
  m.modifyAnnotations (fun annotations => annotations.modify index (·.set name value)) site

/-- The model with the comment of the type at a path changed. -/
def modifyTypeDoc (m : Model) (path : TypePath) (change : DocComment → DocComment) : Model :=
  m.modifyType path fun decl => { decl with doc := change decl.doc }

/-- The model with the comment of the method at a path changed. -/
def modifyMethodDoc (m : Model) (path : MethodPath) (change : DocComment → DocComment) : Model :=
  m.modifyMethod path fun method => { method with doc := change method.doc }

end Model

end RamlInterfaces.Java
