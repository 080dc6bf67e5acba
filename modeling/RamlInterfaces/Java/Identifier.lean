/-
**Identifiers of Java from free text.**

Any text is made an identifier from its runs of ASCII letters and digits.  A digit in front gets a
low line before it, and a reserved word a dollar sign.

* `reservedWords`: the words that are no identifiers;
* `typeName`, `variableName`, `constantName`: names of types, variables and enum constants;
* `isIdentifier`: the identifiers.
-/

import RamlInterfaces.Text.Runs

namespace RamlInterfaces.Java

/-- The words that Java reserves. -/
def reservedWords : List String :=
  ["abstract", "assert", "boolean", "break", "byte", "case", "catch", "char", "class", "const",
    "continue", "default", "do", "double", "else", "enum", "extends", "false", "final", "finally",
    "float", "for", "goto", "if", "implements", "import", "instanceof", "int", "interface", "long",
    "native", "new", "null", "package", "private", "protected", "public", "return", "short",
    "static", "strictfp", "super", "switch", "synchronized", "this", "throw", "throws",
    "transient", "true", "try", "void", "volatile", "while"]

/-- The word is reserved. -/
def isReserved (word : List Char) : Bool := reservedWords.contains (String.ofList word)

/-- A character that may start an identifier. -/
def isIdentifierStart (c : Char) : Bool := c.isAlpha || c == '_' || c == '$'

/-- A character that an identifier may hold. -/
def isIdentifierChar (c : Char) : Bool := c.isAlphanum || c == '_' || c == '$'

/-- The text has the form of an identifier, reserved words included. -/
def isIdentifier : List Char → Bool
  | [] => false
  | first :: rest => isIdentifierStart first && rest.all isIdentifierChar

/-- The words of a text: its runs of letters and digits. -/
def words (cs : List Char) : List (List Char) := Text.runs Char.isAlphanum cs

/-- The word with its first letter in upper case. -/
def capitalize : List Char → List Char
  | [] => []
  | first :: rest => first.toUpper :: rest

/-- The word with its first letter in lower case. -/
def uncapitalize : List Char → List Char
  | [] => []
  | first :: rest => first.toLower :: rest

/-- The name with a low line before a digit in front. -/
def markDigit : List Char → List Char
  | [] => []
  | first :: rest => if first.isDigit then '_' :: first :: rest else first :: rest

/-- The name with a dollar sign before a reserved word. -/
def markReserved (name : List Char) : List Char := if isReserved name then '$' :: name else name

/-- The words of a text, capitalized, in one name. -/
def typeNameChars (cs : List Char) : List Char := markDigit ((words cs).flatMap capitalize)

/-- The words of a text in one name that starts with a small letter. -/
def variableNameChars (cs : List Char) : List Char :=
  markReserved (uncapitalize (typeNameChars cs))

/-- The words of a text with a low line between each two, `VALUE` where there is none. -/
def constantNameChars (cs : List Char) : List Char :=
  match Text.join ['_'] (words cs) with
  | [] => ['V', 'A', 'L', 'U', 'E']
  | name => markReserved (markDigit name)

/-- The name of a type made from a text; empty when the text has no letter or digit. -/
def typeName (text : String) : String := String.ofList (typeNameChars text.toList)

/-- The name of a variable made from a text; empty when the text has no letter or digit. -/
def variableName (text : String) : String := String.ofList (variableNameChars text.toList)

/-- The name of an enum constant made from a literal. -/
def constantName (literal : String) : String := String.ofList (constantNameChars literal.toList)

end RamlInterfaces.Java
