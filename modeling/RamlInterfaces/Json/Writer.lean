/-
**Writing JSON.**

Collections that are not empty are spread over lines, moved in by two spaces.

* `Charset`: whether characters beyond ASCII are written as they are or by their codes;
* `writeString`: a text as a string;
* `write`: a value; a key that is neither a text nor a number nor nothing cannot be written, nor can
  an integer of too many digits.
-/

import RamlInterfaces.File.Encoding
import RamlInterfaces.Value.Listing

namespace RamlInterfaces.Json

/-- Whether characters beyond ASCII are written as they are. -/
inductive Charset where
  | ascii
  | unicode
deriving DecidableEq, Repr

/-- An escape by code. -/
def escapeUnit (unit : Nat) : List Char := ['\\', 'u'] ++ Text.hexDigits 4 unit

/-- A character inside a string. -/
def writeChar (charset : Charset) (c : Char) : List Char :=
  if c = '"' then ['\\', '"']
  else if c = '\\' then ['\\', '\\']
  else if c = '\n' then ['\\', 'n']
  else if c = '\r' then ['\\', 'r']
  else if c = '\t' then ['\\', 't']
  else if c = '\x08' then ['\\', 'b']
  else if c = '\x0C' then ['\\', 'f']
  else if c.toNat < 0x20 ∨ (charset = .ascii ∧ 0x7F ≤ c.toNat) then
    (File.Encoding.units16 c).flatMap escapeUnit
  else [c]

/-- A text as a string. -/
def writeString (charset : Charset) (text : String) : String :=
  String.ofList ('"' :: text.toList.flatMap (writeChar charset) ++ ['"'])

/-- A number. -/
def writeNumber (x : Binary64) : String :=
  match x with
  | .nan => "NaN"
  | .infinite negative => if negative then "-Infinity" else "Infinity"
  | finite => finite.text

/-- A scalar; bytes and dates are written as texts. -/
def writeScalar (charset : Charset) : Scalar → Option String
  | .null => some "null"
  | .bool value => some (if value then "true" else "false")
  | .int n => (Number.decimalInt? n).map String.ofList
  | .float x => some (writeNumber x)
  | other => other.toText?.map (writeString charset)

/-- The name of a member, if the key can be one. -/
def memberName? : Scalar → Option String
  | .null => some "null"
  | .bool value => some (if value then "true" else "false")
  | .int n => (Number.decimalInt? n).map String.ofList
  | .float x => some (writeNumber x)
  | .text text => some text
  | .included target => some target
  | .bytes _ | .date _ | .timestamp _ | .enclosing _ => none

/-- A line end and the space that a depth is moved in by. -/
def lineStart (depth : Nat) : String := String.ofList ('\n' :: List.replicate (2 * depth) ' ')

/-- The elements of a collection between its brackets, each on a line of its own. -/
def spread (opening closing : String) (depth : Nat) (elements : List String) : String :=
  if elements.isEmpty then opening ++ closing
  else
    opening ++ lineStart (depth + 1) ++ (("," ++ lineStart (depth + 1)).intercalate elements) ++
      lineStart depth ++ closing

/-- A value at a depth. -/
def writeAt (charset : Charset) (depth : Nat) : Value → Option String
  | .scalar s => writeScalar charset s
  | .list items => (writeItems (depth + 1) items).map (spread "[" "]" depth)
  | .map entries => (writeMembers (depth + 1) entries).map (spread "\x7b" "\x7d" depth)
  | .set members => (Value.set members).listing?.map (writeString charset)
  | .pair key value =>
    match writeAt charset (depth + 1) key, writeAt charset (depth + 1) value with
    | some first, some second => some (spread "[" "]" depth [first, second])
    | _, _ => none
where
  /-- The items of an array. -/
  writeItems (depth : Nat) : List Value → Option (List String)
    | [] => some []
    | item :: rest =>
      match writeAt charset depth item, writeItems depth rest with
      | some written, some others => some (written :: others)
      | _, _ => none
  /-- The members of an object. -/
  writeMembers (depth : Nat) : List (Scalar × Value) → Option (List String)
    | [] => some []
    | (key, value) :: rest =>
      match memberName? key, writeAt charset depth value, writeMembers depth rest with
      | some name, some written, some others =>
        some ((writeString charset name ++ ": " ++ written) :: others)
      | _, _, _ => none

/-- A value, if all its keys and integers can be written. -/
def write (charset : Charset) (value : Value) : Option String := writeAt charset 0 value

end RamlInterfaces.Json
