/-
**Values that do not fit a field.**

* `Mismatch`: how a value fails to fit the type of a field;
* `Place`: a step on the way to the value;
* `Detail`: a mismatch and its place.
-/

namespace RamlInterfaces

/-- How a value fails to fit the type of a field. -/
inductive Mismatch where
  | notText
  | notBoolean
  | unreadableBoolean
  | notInteger
  | unreadableInteger
  | fractionalInteger
  | infiniteInteger
  | oversizedInteger
  | notNumber
  | unreadableNumber
  | notList
  | notPath
deriving DecidableEq, Repr

/-- The word for a mismatch. -/
def Mismatch.word : Mismatch → String
  | .notText => "string_type"
  | .notBoolean => "bool_type"
  | .unreadableBoolean => "bool_parsing"
  | .notInteger => "int_type"
  | .unreadableInteger => "int_parsing"
  | .fractionalInteger => "int_from_float"
  | .infiniteInteger => "finite_number"
  | .oversizedInteger => "int_parsing_size"
  | .notNumber => "float_type"
  | .unreadableNumber => "float_parsing"
  | .notList => "list_type"
  | .notPath => "path_type"

/-- A step on the way to a value: the name of a field or key, or a number. -/
inductive Place where
  | name (text : String)
  | number (value : Int)
deriving DecidableEq, Repr

/-- A mismatch and its place. -/
structure Detail where
  place : List Place
  mismatch : Mismatch
deriving DecidableEq, Repr

end RamlInterfaces
