/-
**Reading JSON.**

Besides the standard, the words `NaN`, `Infinity` and `-Infinity` are read as numbers.  Of members
with the same name the last one counts, in the place of the first.

* `readString`, `readNumber`: the parts of a text;
* `readValue`: the value at the start of a text;
* `read?`: the value of a text.
-/

import RamlInterfaces.Number.Reading
import RamlInterfaces.Value.Basic

namespace RamlInterfaces.Json

/-- White space between tokens. -/
def isSpace (c : Char) : Bool := c == ' ' || c == '\t' || c == '\n' || c == '\r'

/-- The text without white space in front. -/
def skipSpace (cs : List Char) : List Char := cs.dropWhile isSpace

/-- The number of four hexadecimal digits at the start of a text, and what follows. -/
def readUnit? (cs : List Char) : Option (Nat × List Char) :=
  let digits := cs.take 4
  if digits.length = 4 then (Number.ofDigits? 16 digits).map fun unit => (unit, cs.drop 4) else none

/-- The unit is the first half of a character. -/
def isHighHalf (unit : Nat) : Bool := 0xD800 ≤ unit && unit < 0xDC00

/-- The unit is the second half of a character. -/
def isLowHalf (unit : Nat) : Bool := 0xDC00 ≤ unit && unit < 0xE000

/-- The character of an escape by code, two of which may make one; a lone half stands for the
replacement character. -/
def readCode? (cs : List Char) : Option (Char × List Char) :=
  match readUnit? cs with
  | none => none
  | some (unit, rest) =>
    let alone := if isHighHalf unit || isLowHalf unit then '\uFFFD' else Char.ofNat unit
    if isHighHalf unit then
      match rest with
      | '\\' :: 'u' :: more =>
        match readUnit? more with
        | some (low, after) =>
          if isLowHalf low then
            some (Char.ofNat (0x10000 + (unit - 0xD800) * 0x400 + (low - 0xDC00)), after)
          else some (alone, rest)
        | none => some (alone, rest)
      | _ => some (alone, rest)
    else some (alone, rest)

/-- The character that a letter after a backslash stands for. -/
def escapeChar? : Char → Option Char
  | '"' => some '"'
  | '\\' => some '\\'
  | '/' => some '/'
  | 'b' => some '\x08'
  | 'f' => some '\x0C'
  | 'n' => some '\n'
  | 'r' => some '\r'
  | 't' => some '\t'
  | _ => none

/-- The characters of a string up to its closing quote, and what follows. -/
def readString : Nat → List Char → List Char → Option (List Char × List Char)
  | 0, _, _ => none
  | fuel + 1, text, cs =>
    match cs with
    | [] => none
    | '"' :: rest => some (text.reverse, rest)
    | '\\' :: 'u' :: rest =>
      match readCode? rest with
      | some (c, rest) => readString fuel (c :: text) rest
      | none => none
    | '\\' :: letter :: rest =>
      match escapeChar? letter with
      | some c => readString fuel (c :: text) rest
      | none => none
    | c :: rest => if c.toNat < 0x20 ∨ c = '\\' then none else readString fuel (c :: text) rest

/-- The digits at the start of a text, and what follows. -/
def splitDigits (cs : List Char) : List Char × List Char :=
  (cs.takeWhile Char.isDigit, cs.dropWhile Char.isDigit)

/-- The fraction at the start of a text, with its point, and what follows. -/
def splitFraction (cs : List Char) : List Char × List Char :=
  match cs with
  | '.' :: rest =>
    let (digits, after) := splitDigits rest
    if digits.isEmpty then ([], cs) else ('.' :: digits, after)
  | _ => ([], cs)

/-- The exponent at the start of a text, and what follows. -/
def splitExponent (cs : List Char) : List Char × List Char :=
  match cs with
  | mark :: rest =>
    if mark = 'e' ∨ mark = 'E' then
      let (sign, rest) := match rest with
        | '-' :: rest => (['-'], rest)
        | '+' :: rest => (['+'], rest)
        | _ => ([], rest)
      let (digits, after) := splitDigits rest
      if digits.isEmpty then ([], cs) else (mark :: sign ++ digits, after)
    else ([], cs)
  | [] => ([], cs)

/-- The number at the start of a text, and what follows. -/
def readNumber (cs : List Char) : Option (Scalar × List Char) :=
  let (negative, unsigned) := match cs with
    | '-' :: rest => (true, rest)
    | _ => (false, cs)
  let (digits, rest) := match unsigned with
    | '0' :: rest => (['0'], rest)
    | _ => splitDigits unsigned
  if digits.isEmpty then none
  else
    let (fraction, rest) := splitFraction rest
    let (exponent, rest) := splitExponent rest
    if fraction.isEmpty && exponent.isEmpty then
      (Number.ofDigits? 10 digits).map fun n => (.int (if negative then -(n : Int) else n), rest)
    else
      (Number.readUnsigned? negative (digits ++ fraction ++ exponent)).map fun x => (.float x, rest)

/-- The words that stand for values. -/
def words : List (List Char × Scalar) :=
  [("null".toList, .null), ("true".toList, .bool true), ("false".toList, .bool false),
    ("NaN".toList, .float .nan), ("Infinity".toList, .float (.infinite false)),
    ("-Infinity".toList, .float (.infinite true))]

/-- The word at the start of a text, and what follows. -/
def readWord? (cs : List Char) : Option (Scalar × List Char) :=
  (words.find? fun entry => entry.1.isPrefixOf cs).map fun (word, value) =>
    (value, cs.drop word.length)

mutual

/-- The value at the start of a text, and what follows. -/
def readValue : Nat → List Char → Option (Value × List Char)
  | 0, _ => none
  | fuel + 1, cs =>
    match cs with
    | '"' :: rest =>
      (readString fuel [] rest).map fun (text, rest) => (.text (String.ofList text), rest)
    | '[' :: rest =>
      match skipSpace rest with
      | ']' :: rest => some (.list [], rest)
      | rest => (readItems fuel rest).map fun (items, rest) => (.list items, rest)
    | '\x7b' :: rest =>
      match skipSpace rest with
      | '\x7d' :: rest => some (.map [], rest)
      | rest => (readMembers fuel rest).map fun (members, rest) =>
        (.map (Entries.ofList members), rest)
    | _ =>
      match readWord? cs with
      | some (value, rest) => some (.scalar value, rest)
      | none => (readNumber cs).map fun (value, rest) => (.scalar value, rest)

/-- The items of an array up to its closing bracket, and what follows. -/
def readItems : Nat → List Char → Option (List Value × List Char)
  | 0, _ => none
  | fuel + 1, cs =>
    match readValue fuel cs with
    | none => none
    | some (item, rest) =>
      match skipSpace rest with
      | ']' :: rest => some ([item], rest)
      | ',' :: rest =>
        (readItems fuel (skipSpace rest)).map fun (items, rest) => (item :: items, rest)
      | _ => none

/-- The members of an object up to its closing brace, and what follows. -/
def readMembers : Nat → List Char → Option (List (Scalar × Value) × List Char)
  | 0, _ => none
  | fuel + 1, cs =>
    match cs with
    | '"' :: rest =>
      match readString fuel [] rest with
      | none => none
      | some (name, rest) =>
        match skipSpace rest with
        | ':' :: rest =>
          match readValue fuel (skipSpace rest) with
          | none => none
          | some (value, rest) =>
            let member : Scalar × Value := (.text (String.ofList name), value)
            match skipSpace rest with
            | '\x7d' :: rest => some ([member], rest)
            | ',' :: rest =>
              (readMembers fuel (skipSpace rest)).map fun (members, rest) =>
                (member :: members, rest)
            | _ => none
        | _ => none
    | _ => none

end

/-- The value of a text. -/
def read? (text : String) : Option Value :=
  let cs := text.toList
  match readValue (2 * cs.length + 2) (skipSpace cs) with
  | some (value, rest) => if (skipSpace rest).isEmpty then some value else none
  | none => none

end RamlInterfaces.Json
