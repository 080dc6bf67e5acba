/-
**Source text of Java types.**

* `renderAnnotation`, `renderMethod`, `renderEnumBody`, `renderType`: the text of each element,
  without a line end after it;
* `literalField`: the field of an enum that holds the literal of a constant;
* `renderUnit`: a compilation unit.
-/

import RamlInterfaces.Java.Layout
import RamlInterfaces.Java.Literal
import RamlInterfaces.Java.Naming

namespace RamlInterfaces.Java

/-- The value of an element of an annotation. -/
def renderValue : ElementValue → Namer (List Char)
  | .scalar s => written (scalarLiteral? s)
  | .constant type name => do
    let spelled ← nameType (.named type)
    return spelled.toList ++ '.' :: name.toList
  | .list items => do
    let rendered ← renderValues items
    return '\x7b' :: Text.join [',', ' '] rendered ++ ['\x7d']
  | .map entries => do
    let listed ← written (ElementValue.map entries).listing?
    return literal listed
where
  /-- The values of a list. -/
  renderValues : List ElementValue → Namer (List (List Char))
    | [] => pure []
    | item :: rest => do
      let first ← renderValue item
      let others ← renderValues rest
      return first :: others

/-- A use of an annotation; the name of its only element is left out where it is `value`. -/
def renderAnnotation (mark : Annotation) : Namer (List Char) := do
  let spelled ← nameType mark.type
  let name := '@' :: spelled.toList
  match mark.elements with
  | [] => return name
  | [("value", value)] =>
    let rendered ← renderValue value
    return name ++ '(' :: rendered ++ [')']
  | elements =>
    let rendered ← elements.mapM fun (key, value) => do
      let text ← renderValue value
      return key.toList ++ [' ', '=', ' '] ++ text
    return name ++ '(' :: Text.join [',', ' '] rendered ++ [')']

/-- The name with low lines put in front, at most so many, until it is not taken. -/
def freshField (taken : List String) : Nat → String → String
  | 0, field => field
  | rounds + 1, field =>
    if taken.contains field then freshField taken rounds ("_" ++ field) else field

/-- The field of an enum that holds the literal of a constant: no constant has its name. -/
def literalField (constants : List Constant) : String :=
  freshField (constants.map (·.name)) constants.length "value"

/-- The constants of an enum, one on each line. -/
def renderConstants : List Constant → List Char
  | [] => line [';']
  | [last] => line (last.name.toList ++ '(' :: literal last.literal ++ [')', ';'])
  | next :: rest =>
    line (next.name.toList ++ '(' :: literal next.literal ++ [')', ',']) ++ renderConstants rest

/-- The members of an enum after its constants: the literal of each, and the constant of a literal.
The last three arguments are the spellings of the classes that they use. -/
def enumMembers (decl : TypeDecl) (string override illegalArgument : String) : List Char :=
  let field := literalField decl.constants
  let lines : List String :=
    ["",
      "private final " ++ string ++ " " ++ field ++ ";",
      "",
      decl.name ++ "(" ++ string ++ " " ++ field ++ ") \x7b",
      "    this." ++ field ++ " = " ++ field ++ ";",
      "\x7d",
      "",
      "@" ++ override,
      "public " ++ string ++ " toString() \x7b",
      "    return " ++ field ++ ";",
      "\x7d",
      "",
      "public static " ++ decl.name ++ " fromString(" ++ string ++ " value) \x7b",
      "    for (" ++ decl.name ++ " candidate : values()) \x7b",
      "        if (candidate." ++ field ++ ".equals(value)) \x7b",
      "            return candidate;",
      "        \x7d",
      "    \x7d",
      "    throw new " ++ illegalArgument ++ "(value);"]
  (lines.flatMap fun text => line text.toList) ++ ['\x7d']

/-- The members of an enum, its constants first. -/
def renderEnumBody (decl : TypeDecl) : Namer (List Char) := do
  let string ← nameType (.named "java.lang.String")
  let override ← nameType (.named "java.lang.Override")
  let illegalArgument ← nameType (.named "java.lang.IllegalArgumentException")
  return renderConstants decl.constants ++ enumMembers decl string override illegalArgument

/-- The members of an enum as members of its type; other types have none of them. -/
def renderBody (decl : TypeDecl) : Namer (List (List Char)) :=
  if decl.kind = .enum then do
    let rendered ← renderEnumBody decl
    return [rendered]
  else return []

/-- The text of a parameter, each of its annotations on a line of its own. -/
def layOutParameter (ending : List Char) (annotations : List (List Char)) (type name : String) :
    List Char :=
  (annotations.flatMap fun mark => line (margin ++ mark)) ++ margin ++
    type.toList ++ ' ' :: name.toList ++ ending

/-- A parameter with its annotations. -/
def renderParameter (ending : List Char) (parameter : Parameter) : Namer (List Char) := do
  let annotations ← parameter.annotations.mapM renderAnnotation
  let type ← nameType parameter.type
  return layOutParameter ending annotations type parameter.name

/-- The parameters of a method, the last one closing the list. -/
def renderParameters : List Parameter → Namer (List (List Char))
  | [] => pure []
  | [last] => do
    let rendered ← renderParameter [')', ';'] last
    return [rendered]
  | next :: rest => do
    let rendered ← renderParameter [','] next
    let others ← renderParameters rest
    return rendered :: others

/-- The text of a method with the given parameters. -/
def layOutMethod (doc : DocComment) (annotations : List (List Char)) (returnType name : String)
    (parameters : List (List Char)) : List Char :=
  let opening := docComment doc ++ annotations.flatMap line ++ returnType.toList ++
    ' ' :: name.toList ++ ['(']
  match parameters with
  | [] => opening ++ [')', ';']
  | rendered => line opening ++ Text.join ['\n'] rendered

/-- A method. -/
def renderMethod (method : Method) : Namer (List Char) := do
  let annotations ← method.annotations.mapM renderAnnotation
  let returnType ← nameType method.returnType
  let parameters ← renderParameters method.parameters
  return layOutMethod method.doc annotations returnType method.name parameters

/-- The text of a type with the given members: its comment, its annotations and its body. -/
def layOutType (topLevel : Bool) (doc : DocComment) (annotations : List (List Char)) (kind : Kind)
    (name : String) (members : List (List Char)) : List Char :=
  docComment doc ++ annotations.flatMap line ++
    line ((if topLevel then "public ".toList else []) ++ kind.keyword.toList ++
      ' ' :: name.toList ++ [' ', '\x7b']) ++
    separated ['\n'] (members.map fun member => line (indented member)) ++ ['\x7d']

/-- A type with all its members. -/
def renderType (topLevel : Bool) : TypeDecl → Namer (List Char)
  | ⟨name, kind, annotations, doc, methods, nested, constants⟩ => do
    let annotations ← annotations.mapM renderAnnotation
    let body ← renderBody { name, kind, constants }
    let methods ← methods.mapM renderMethod
    let nested ← renderTypes nested
    return layOutType topLevel doc annotations kind name (body ++ methods ++ nested)
where
  /-- The types nested in a type. -/
  renderTypes : List TypeDecl → Namer (List (List Char))
    | [] => pure []
    | decl :: rest => do
      let rendered ← renderType false decl
      let others ← renderTypes rest
      return rendered :: others

/-- The text of a compilation unit around its type. -/
def layOutUnit (package : String) (imports : List String) (body : List Char) : List Char :=
  (if package.isEmpty then [] else line ("package ".toList ++ package.toList ++ [';']) ++ ['\n']) ++
    (imports.flatMap fun name => line ("import ".toList ++ name.toList ++ [';'])) ++
    (if imports.isEmpty then [] else ['\n']) ++ line body

/-- The source text of the type at a path as a compilation unit. -/
def renderUnit (path : TypePath) (decl : TypeDecl) : Except Failure String := do
  let (body, naming) ← (renderType true decl).run (Naming.ofUnit path decl)
  return String.ofList (layOutUnit path.package naming.sortedImports body)

end RamlInterfaces.Java
