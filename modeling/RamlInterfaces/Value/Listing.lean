/-
**Values as text.**

A scalar by itself reads as its own text.  A list is written in square brackets, a mapping or a set
in braces and a pair in parentheses, with every scalar inside them in its listed form.  A value that
holds an integer of too many digits cannot be written.

* `Value.listing?`: the listed form of a value;
* `Value.toText?`: a value by itself.
-/

import RamlInterfaces.Value.Basic

namespace RamlInterfaces.Value

/-- The value inside a listed collection. -/
def listing? : Value → Option String
  | .scalar s => s.listing?
  | .list items => do
    let listed ← listings? items
    return "[" ++ ", ".intercalate listed ++ "]"
  | .map entries => do
    let listed ← entryListings? entries
    return "\x7b" ++ ", ".intercalate listed ++ "\x7d"
  | .set [] => some "set()"
  | .set members => do
    let listed ← members.mapM Scalar.listing?
    return "\x7b" ++ ", ".intercalate listed ++ "\x7d"
  | .pair key value => do
    let first ← listing? key
    let second ← listing? value
    return "(" ++ first ++ ", " ++ second ++ ")"
where
  /-- The listed forms of the items of a list. -/
  listings? : List Value → Option (List String)
    | [] => some []
    | item :: rest => do
      let first ← listing? item
      let others ← listings? rest
      return first :: others
  /-- The listed forms of the entries of a mapping. -/
  entryListings? : List (Scalar × Value) → Option (List String)
    | [] => some []
    | (key, value) :: rest => do
      let name ← key.listing?
      let listed ← listing? value
      let others ← entryListings? rest
      return (name ++ ": " ++ listed) :: others

/-- The value by itself: a scalar reads as its own text. -/
def toText? : Value → Option String
  | .scalar s => s.toText?
  | other => other.listing?

end RamlInterfaces.Value
