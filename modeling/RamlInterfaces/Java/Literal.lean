/-
**Literals of Java.**

* `literal`: the string literal that denotes a text;
* `scalarLiteral?`: the literal that denotes a scalar, unless it is an integer of too many digits.
-/

import RamlInterfaces.Value.Scalar

namespace RamlInterfaces.Java

/-- A character inside a string literal. -/
def literalChar (c : Char) : List Char :=
  if c = '\\' then ['\\', '\\']
  else if c = '"' then ['\\', '"']
  else if c = '\n' then ['\\', 'n']
  else if c = '\r' then ['\\', 'r']
  else if c = '\t' then ['\\', 't']
  else [c]

/-- The string literal that denotes a text. -/
def literal (text : String) : List Char := '"' :: text.toList.flatMap literalChar ++ ['"']

/-- The greatest number that a literal without a suffix denotes. -/
def maxPlainInteger : Nat := 0x7fffffff

/-- The literal that denotes an integer, a long one with its suffix. -/
def integerLiteral? (n : Int) : Option (List Char) :=
  (Number.decimalInt? n).map (· ++ if maxPlainInteger < n.natAbs then ['L'] else [])

/-- The literal that denotes a scalar: texts and dates are written as string literals. -/
def scalarLiteral? : Scalar → Option (List Char)
  | .bool value => some (if value then "true" else "false").toList
  | .int n => integerLiteral? n
  | .float x => some x.text.toList
  | other => other.toText?.map literal

end RamlInterfaces.Java
