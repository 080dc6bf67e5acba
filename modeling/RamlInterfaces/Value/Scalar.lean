/-
**Scalars of a document.**

* `Scalar`: nothing, a truth value, a number, a text, the target of an inclusion, bytes, a date, a
  moment, and the mark of a collection that holds itself;
* `Scalar.alike`: the equality that decides whether two scalars are the same key: numbers are
  alike by value, truth values counting as 0 and 1, and an inclusion is alike its target's text;
* `Scalar.string?`: the text of a scalar that is a string;
* `Scalar.toText?`, `Scalar.listing?`: a scalar by itself and inside a listed collection; an integer
  of too many digits has neither text.
-/

import RamlInterfaces.Number.Shortest
import RamlInterfaces.Calendar.Timestamp
import RamlInterfaces.Text.Quoted

namespace RamlInterfaces

/-- A scalar of a document.  `included` is the target of an inclusion that is not followed;
`enclosing` stands where a collection holds one that it is part of, a mapping or a list. -/
inductive Scalar where
  | null
  | bool (value : Bool)
  | int (value : Int)
  | float (value : Binary64)
  | text (value : String)
  | included (target : String)
  | bytes (value : List UInt8)
  | date (value : Date)
  | timestamp (value : Timestamp)
  | enclosing (isMapping : Bool)
deriving DecidableEq, Repr

namespace Scalar

/-- The exact value of a scalar that counts as a number. -/
inductive Quantity where
  | integer (value : Int)
  | other (value : Binary64)
deriving DecidableEq

/-- The number that a scalar counts as; a whole floating-point number counts as its integer. -/
def quantity? : Scalar → Option Quantity
  | .bool value => some (.integer (if value then 1 else 0))
  | .int value => some (.integer value)
  | .float value =>
    match value.whole? with
    | some n => some (.integer n)
    | none => some (.other value)
  | _ => none

/-- The integer that a scalar counts as. -/
def whole? (s : Scalar) : Option Int :=
  match s.quantity? with
  | some (.integer n) => some n
  | _ => none

/-- The scalar is the number that is none. -/
def isNan : Scalar → Bool
  | .float .nan => true
  | _ => false

/-- The scalar is neither bytes nor the mark of a collection that holds itself. -/
def isPlain : Scalar → Bool
  | .bytes _ | .enclosing _ => false
  | _ => true

/-- The text of a string, the target of an inclusion being one. -/
def string? : Scalar → Option String
  | .text value => some value
  | .included target => some target
  | _ => none

/-- Two scalars are alike when they are the same number, the same string, the same date or the
same instant. -/
def alike (first second : Scalar) : Bool :=
  match first.quantity?, second.quantity? with
  | some a, some b => a == b
  | none, none =>
    match first.string?, second.string? with
    | some a, some b => a == b
    | none, none =>
      match first, second with
      | .timestamp a, .timestamp b => a.alike b
      | a, b => a == b
    | _, _ => false
  | _, _ => false

@[simp] theorem alike_refl (s : Scalar) : s.alike s = true := by
  unfold alike
  cases count : s.quantity? with
  | some a => simp
  | none =>
    cases string : s.string? with
    | some a => simp
    | none => cases s <;> simp

/-- Strings are alike exactly when they have the same text. -/
theorem alike_text {first second : Scalar} {a b : String} (isFirst : first.string? = some a)
    (isSecond : second.string? = some b) : first.alike second = (a == b) := by
  cases first <;> cases second <;> simp_all [alike, quantity?, string?]

/-- Only a string with the same text is alike a text. -/
theorem string?_of_alike_text {s : Scalar} {text : String} (same : s.alike (.text text) = true) :
    s.string? = some text := by
  cases s <;> simp_all [alike, quantity?, string?]
  split at same <;> simp_all

/-- The scalar by itself: a string is its own text, and a collection that holds itself is not listed
again.  An integer of too many digits has no text. -/
def toText? : Scalar → Option String
  | .null => some "None"
  | .bool true => some "True"
  | .bool false => some "False"
  | .int value => (Number.decimalInt? value).map String.ofList
  | .float value => some value.text
  | .text value => some value
  | .included target => some target
  | .bytes value => some (Text.quotedBytes value)
  | .date value => some (String.ofList value.iso)
  | .timestamp value => some (String.ofList (value.text ' '))
  | .enclosing true => some "\x7b...\x7d"
  | .enclosing false => some "[...]"

/-- A string is its own text. -/
theorem toText?_of_string? {s : Scalar} {text : String} (string : s.string? = some text) :
    s.toText? = some text := by
  cases s with
  | text | included => exact string
  | _ => cases string

/-- The scalar inside a listed collection: strings are quoted, dates are listed by their parts. -/
def listing? : Scalar → Option String
  | .text value => some (Text.quoted value)
  | .included target => some ("Include(" ++ Text.quoted target ++ ")")
  | .date value => some value.listing
  | .timestamp value => some value.listing
  | other => other.toText?

end Scalar

end RamlInterfaces
