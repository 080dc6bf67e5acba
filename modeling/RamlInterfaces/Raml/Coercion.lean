/-
**Fitting values to typed fields.**

A field accepts values of its own type and others that stand for one: a truth value may be written
as a word or as 0 or 1, an integer as a text or a whole floating-point number, a number as a text.
Bytes stand for the text that they are in UTF-8.

* `coerceText`, `coerceBool`, `coerceInt`, `coerceNumber`: a value as a field;
* `fieldOr`, `optionalField`, `optionalTexts`: a field with a default, and fields that may be absent
  or nothing;
* `parameterOfFields`: a parameter from the fields given for it.
-/

import RamlInterfaces.Detail
import RamlInterfaces.Number.Reading
import RamlInterfaces.Raml.Description
import RamlInterfaces.Value.Basic

namespace RamlInterfaces.Raml

/-- White space of any script. -/
def isSpace (c : Char) : Bool := Text.isBlank c && !(28 ≤ c.toNat && c.toNat ≤ 31)

/-- The text without white space around it. -/
def trimSpace (cs : List Char) : List Char :=
  Text.dropLastWhile isSpace (cs.dropWhile isSpace)

/-- A text. -/
def coerceText (value : Value) : Except Mismatch String :=
  match value.string? with
  | some text => .ok text
  | none => .error .notText

/-- The words for true. -/
def trueWords : List String := ["1", "on", "t", "true", "y", "yes"]

/-- The words for false. -/
def falseWords : List String := ["0", "off", "f", "false", "n", "no"]

/-- The power of two that integers of 64 bits stay below. -/
def int64Bound : Int := 0x8000000000000000

/-- The integer has 64 bits. -/
def fitsInt64 (n : Int) : Bool := -int64Bound ≤ n && n < int64Bound

/-- The truth value that an integer stands for. -/
def boolOfInt (n : Int) : Except Mismatch Bool :=
  if n = 0 then .ok false else if n = 1 then .ok true else .error .unreadableBoolean

/-- A truth value: itself, one of its words in any case, or 0 or 1. -/
def coerceBool (value : Value) : Except Mismatch Bool :=
  match value with
  | .scalar (.bool b) => .ok b
  | .scalar (.int n) => if fitsInt64 n then boolOfInt n else .error .notBoolean
  | .scalar (.float x) =>
    match x.whole? with
    | some n => if -int64Bound < n ∧ n < int64Bound then boolOfInt n else .error .notBoolean
    | none => .error .notBoolean
  | other =>
    match other.spelling? with
    | some (some text) =>
      let word := String.ofList (text.toList.map Char.toLower)
      if trueWords.contains word then .ok true
      else if falseWords.contains word then .ok false
      else .error .unreadableBoolean
    | some none => .error .unreadableBoolean
    | none => .error .notBoolean

/-- A minus sign at the start of a text, and what follows it. -/
def splitMinus : List Char → Bool × List Char
  | '-' :: rest => (true, rest)
  | cs => (false, cs)

/-- The integer that digits after an optional minus sign denote; zero alone may stand first. -/
def readPlainInt? (cs : List Char) : Option Int :=
  let (negative, digits) := splitMinus cs
  if digits.length ≠ 1 ∧ digits.head? = some '0' then none
  else (Number.ofDigits? 10 (if digits.all Char.isDigit then digits else [])).map fun n =>
    if negative then -(n : Int) else n

/-- The text starts with more digits than an integer may have, its sign counted as one. -/
def isOversizedInt (cs : List Char) : Bool :=
  let (negative, unsigned) := splitMinus cs
  let digits := unsigned.takeWhile Char.isDigit
  digits.head? != some '0' && Number.decimalSpan < digits.length + (if negative then 1 else 0)

/-- A text without the zeros, and low lines among them, before its first digit of weight. -/
def withoutLeadingZeros? : List Char → Option (List Char)
  | '0' :: rest => some (afterZero '0' rest)
  | c :: rest => if c.isDigit || c = '-' then some (c :: rest) else none
  | [] => none
where
  /-- The rest after zeros, the last of which stays where no other digit follows. -/
  afterZero (last : Char) : List Char → List Char
    | [] => [last]
    | c :: rest =>
      if c = '0' ∨ c = '_' then afterZero c rest
      else if c = '.' then last :: c :: rest
      else c :: rest

/-- A text without a point that zeros follow to the end. -/
def withoutZeroFraction (cs : List Char) : List Char :=
  match cs.dropWhile (· != '.') with
  | '.' :: fraction =>
    if !fraction.isEmpty && fraction.all (· == '0') then cs.takeWhile (· != '.') else cs
  | _ => cs

/-- A text without a plus sign in front, which no minus sign may follow. -/
def withoutPlus? : List Char → Option (List Char)
  | '+' :: '-' :: _ => none
  | '+' :: rest => some rest
  | cs => some cs

/-- The plain form of an integer that is written more freely: with white space around it, a plus
sign, leading zeros after the sign, a fraction of zeros, and single low lines between digits. -/
def plainForm? (cs : List Char) : Option (List Char) := do
  let signed ← withoutPlus? (trimSpace cs)
  let (negative, unsigned) := splitMinus signed
  let significant ← withoutLeadingZeros? unsigned
  let digits ← Number.withoutGroupMarks (withoutZeroFraction significant)
  return if negative then '-' :: digits else digits

/-- The integer that a text denotes. -/
def readLooseInt (cs : List Char) : Except Mismatch Int :=
  if isOversizedInt cs then .error .oversizedInteger
  else match (readPlainInt? cs).or ((plainForm? cs).bind readFreedInt?) with
    | some n => .ok n
    | none => .error .unreadableInteger
where
  /-- The integer of a plain form that is not too long. -/
  readFreedInt? (cs : List Char) : Option Int :=
    if isOversizedInt cs then none else readPlainInt? cs

/-- An integer: itself, a truth value, a whole floating-point number, or a text that denotes
one. -/
def coerceInt (value : Value) : Except Mismatch Int :=
  match value with
  | .scalar (.int n) => .ok n
  | .scalar (.bool b) => .ok (if b then 1 else 0)
  | .scalar (.float x) =>
    match x.floor? with
    | none => .error .infiniteInteger
    | some _ =>
      match x.whole? with
      | none => .error .fractionalInteger
      | some n =>
        if -int64Bound < n ∧ n < int64Bound then .ok n else .error .oversizedInteger
  | other =>
    match other.spelling? with
    | some (some text) => readLooseInt text.toList
    | some none => .error .unreadableInteger
    | none => .error .notInteger

/-- The number that a text denotes, low lines between its characters left out. -/
def readLooseNumber? (cs : List Char) : Option Binary64 :=
  match Number.readBinary64 (trimSpace cs) with
  | some x => some x
  | none => (Number.withoutGroupMarks cs).bind Number.readBinary64

/-- A number: itself, the nearest one to an integer, a truth value, or a text that denotes one. -/
def coerceNumber (value : Value) : Except Mismatch Binary64 :=
  match value with
  | .scalar (.float x) => .ok x
  | .scalar (.int n) =>
    match Binary64.ofInt n with
    | .infinite _ => .error .notNumber
    | x => .ok x
  | .scalar (.bool b) => .ok (Binary64.ofInt (if b then 1 else 0))
  | other =>
    match other.spelling? with
    | some (some text) =>
      match readLooseNumber? text.toList with
      | some x => .ok x
      | none => .error .unreadableNumber
    | some none => .error .unreadableNumber
    | none => .error .notNumber

/-- The field of a name that is not given, or is given its value, or does not fit. -/
abbrev Fitted (α : Type) := Except (List Detail) α

/-- A value at a place, fitted. -/
def fitAt {α : Type} (place : List Place) (coerce : Value → Except Mismatch α) (value : Value) :
    Fitted α :=
  match coerce value with
  | .ok fitted => .ok fitted
  | .error mismatch => .error [⟨place, mismatch⟩]

/-- The field of a mapping of fields, with its default where it is not given. -/
def fieldOr {α : Type} (fields : Entries) (name : String) (default : α)
    (coerce : Value → Except Mismatch α) : Fitted α :=
  match fields.find? (.text name) with
  | none => .ok default
  | some value => fitAt [.name name] coerce value

/-- The field of a mapping of fields that may be absent or nothing. -/
def optionalField {α : Type} (fields : Entries) (name : String)
    (coerce : Value → Except Mismatch α) : Fitted (Option α) :=
  match fields.find? (.text name) with
  | none | some (.scalar .null) => .ok none
  | some value => (fitAt [.name name] coerce value).map some

/-- What the fields that fit give, and the details of all that do not. -/
def Fitted.both {α β : Type} (first : Fitted α) (second : Fitted β) : Fitted (α × β) :=
  match first, second with
  | .ok a, .ok b => .ok (a, b)
  | .error details, .ok _ => .error details
  | .ok _, .error details => .error details
  | .error details, .error others => .error (details ++ others)

/-- The texts of a list, each with its place. -/
def textsFrom (name : String) (index : Nat) : List Value → Fitted (List String)
  | [] => .ok []
  | item :: rest =>
    (Fitted.both (fitAt [.name name, .number index] coerceText item)
      (textsFrom name (index + 1) rest)).map fun (first, others) => first :: others

/-- The field of a mapping of fields that is a list of texts, absent or nothing. -/
def optionalTexts (fields : Entries) (name : String) : Fitted (Option (List String)) :=
  match fields.find? (.text name) with
  | none | some (.scalar .null) => .ok none
  | some (.list items) => (textsFrom name 0 items).map some
  | some _ => .error [⟨[.name name], .notList⟩]

/-- The parameter that the given fields make. -/
def parameterOfFields (fields : Entries) : Fitted Parameter :=
  let text (name : String) := optionalField fields name coerceText
  let names := Fitted.both (text "display_name") (Fitted.both (text "description") (text "type"))
  let flags := Fitted.both (fieldOr fields "required" false coerceBool)
    (fieldOr fields "repeat" false coerceBool)
  let values := Fitted.both (text "default")
    (Fitted.both (text "example") (Fitted.both (optionalTexts fields "enum_values")
      (text "pattern")))
  let lengths := Fitted.both (optionalField fields "min_length" coerceInt)
    (optionalField fields "max_length" coerceInt)
  let limits := Fitted.both (optionalField fields "minimum" coerceNumber)
    (optionalField fields "maximum" coerceNumber)
  (Fitted.both names (Fitted.both flags (Fitted.both values (Fitted.both lengths limits)))).map
    fun ((displayName, description, kind), (required, repeated),
        (default, sample, enumValues, pattern), (minLength, maxLength), (minimum, maximum)) =>
      { displayName, description, kind, required, repeated, default, sample, enumValues, pattern,
        minLength, maxLength, minimum, maximum }

end RamlInterfaces.Raml
