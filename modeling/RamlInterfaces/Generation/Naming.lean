/-
**Names and paths of generated members.**

* `interfaceName`: the name of the interface of a top-level resource;
* `methodName`: the name of the method of an action;
* `interfacePath`, `methodPath`: the paths that an interface and its methods are bound to.
-/

import RamlInterfaces.Java.Identifier
import RamlInterfaces.Text.Blank
import RamlInterfaces.Text.Lowercase

namespace RamlInterfaces.Generation

/-- The name of an interface whose resource has no usable name. -/
def rootInterfaceName : String := "Root"

/-- The name of an interface: from the display name unless that is blank, else from the relative
path. -/
def interfaceName (displayName : Option String) (relativePath : String) : String :=
  let source := match displayName with
    | some name => if Text.isAllBlank name then relativePath else name
    | none => relativePath
  let name := Java.typeName source
  if name.isEmpty then rootInterfaceName else name

/-- The path with every opening brace read as the word `By`. -/
def spellPlaceholders (path : List Char) : List Char :=
  path.flatMap fun c => if c = '\x7b' then [' ', 'B', 'y', ' '] else [c]

/-- The name of a method: the verb in small letters and the words of the path. -/
def methodName (verb path : String) : String :=
  Text.lower verb ++ String.ofList (Java.typeNameChars (spellPlaceholders path.toList))

/-- The characters of a path without the slashes in front. -/
def withoutLeadingSlashes (path : List Char) : List Char := path.dropWhile (· == '/')

/-- The path of an interface: the relative path of its resource without slashes around it. -/
def interfacePath (relativePath : String) : String :=
  String.ofList (Text.dropLastWhile (· == '/') (withoutLeadingSlashes relativePath.toList))

/-- The path of a resource relative to the path of its interface. -/
def methodPath (path interfacePath : String) : String :=
  let plain := withoutLeadingSlashes path.toList
  if interfacePath.isEmpty then String.ofList plain
  else
    let start := interfacePath.toList ++ ['/']
    if start.isPrefixOf plain then String.ofList (plain.drop start.length) else ""

end RamlInterfaces.Generation
