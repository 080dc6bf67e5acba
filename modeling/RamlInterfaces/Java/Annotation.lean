/-
**Annotations and documentation comments.**

* `ElementValue`: the value of an element of an annotation;
* `Annotation`: a use of an annotation type with its elements in order;
* `DocComment`: paragraphs followed by tags for parameters.
-/

import RamlInterfaces.Java.TypeRef
import RamlInterfaces.Value.Listing

namespace RamlInterfaces.Java

/-- The value of an element of an annotation; a `constant` is one of an enum type from outside. -/
inductive ElementValue where
  | scalar (value : Scalar)
  | constant (type name : String)
  | list (items : List ElementValue)
  | map (entries : List (Scalar × ElementValue))
deriving Repr

namespace ElementValue

/-- A text. -/
abbrev text (s : String) : ElementValue := .scalar (.text s)

/-- The value inside a listed collection, unless it holds an integer of too many digits. -/
def listing? : ElementValue → Option String
  | .scalar s => s.listing?
  | .constant type name =>
    some ("EnumValue(type=ClassRef(name=" ++ Text.quoted type ++ ", args=()), constant=" ++
      Text.quoted name ++ ")")
  | .list items => do
    let listed ← listings? items
    return "[" ++ ", ".intercalate listed ++ "]"
  | .map entries => do
    let listed ← entryListings? entries
    return "\x7b" ++ ", ".intercalate listed ++ "\x7d"
where
  /-- The listed forms of the items of a list. -/
  listings? : List ElementValue → Option (List String)
    | [] => some []
    | item :: rest => do
      let first ← listing? item
      let others ← listings? rest
      return first :: others
  /-- The listed forms of the entries of a mapping. -/
  entryListings? : List (Scalar × ElementValue) → Option (List String)
    | [] => some []
    | (key, value) :: rest => do
      let name ← key.listing?
      let listed ← listing? value
      let others ← entryListings? rest
      return (name ++ ": " ++ listed) :: others

end ElementValue

/-- The entries with a value under a name: in the place of the name if it is there, else at the
end. -/
def putNamed {α : Type} (entries : List (String × α)) (name : String) (value : α) :
    List (String × α) :=
  match entries with
  | [] => [(name, value)]
  | (first, old) :: rest =>
    if first = name then (first, value) :: rest else (first, old) :: putNamed rest name value

/-- A use of an annotation type. -/
structure Annotation where
  type : TypeRef
  elements : List (String × ElementValue) := []
deriving Repr

/-- The annotation with an element set. -/
def Annotation.set (mark : Annotation) (name : String) (value : ElementValue) : Annotation :=
  { mark with elements := putNamed mark.elements name value }

/-- The first annotation of the type with a qualified name. -/
def findAnnotation? (annotations : List Annotation) (qualifiedName : String) : Option Annotation :=
  annotations.find? (·.type.qualifiedName == qualifiedName)

/-- A documentation comment. -/
structure DocComment where
  paragraphs : List String := []
  tags : List (String × String) := []
deriving DecidableEq, Repr

namespace DocComment

/-- The comment says nothing. -/
def isEmpty (doc : DocComment) : Bool := doc.paragraphs.isEmpty && doc.tags.isEmpty

/-- The comment with one more paragraph. -/
def add (doc : DocComment) (text : String) : DocComment :=
  { doc with paragraphs := doc.paragraphs ++ [text] }

/-- The comment with a tag for a parameter. -/
def addTag (doc : DocComment) (name text : String) : DocComment :=
  { doc with tags := putNamed doc.tags name text }

end DocComment

end RamlInterfaces.Java
