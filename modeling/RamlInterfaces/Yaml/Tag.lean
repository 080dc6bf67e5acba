/-
**Tags of YAML nodes.**

* `Tag`: what a node is said to be;
* `Tag.ofName`: the tag of a full name;
* `Tag.ofPlain`: the tag that the text of a plain scalar implies.
-/

import RamlInterfaces.Calendar.Timestamp

namespace RamlInterfaces.Yaml

/-- What a node is said to be.  The items of `pairs` are mappings of one entry each, and a `set` is
a mapping whose keys count alone.  A `merge` key takes in the entries of its value, and a `standIn`
key gives the value of a mapping where a scalar is wanted. -/
inductive Tag where
  | null
  | bool
  | int
  | float
  | timestamp
  | text
  | bytes
  | sequence
  | pairs
  | mapping
  | set
  | merge
  | standIn
  | inclusion
  | unknown
deriving DecidableEq, Repr

/-- The tag of a full name. -/
def Tag.ofName (name : String) : Tag :=
  if name = "!include" then .inclusion
  else match name.dropPrefix? "tag:yaml.org,2002:" with
    | none => .unknown
    | some kind =>
      match kind.toString with
      | "null" => .null
      | "bool" => .bool
      | "int" => .int
      | "float" => .float
      | "timestamp" => .timestamp
      | "str" => .text
      | "binary" => .bytes
      | "seq" => .sequence
      | "omap" | "pairs" => .pairs
      | "map" => .mapping
      | "set" => .set
      | "merge" => .merge
      | "value" => .standIn
      | _ => .unknown

/-- The words of truth values. -/
def boolWords : List String :=
  ["yes", "Yes", "YES", "no", "No", "NO", "true", "True", "TRUE", "false", "False", "FALSE", "on",
    "On", "ON", "off", "Off", "OFF"]

/-- The words for nothing. -/
def nullWords : List String := ["", "~", "null", "Null", "NULL"]

/-- A text without a sign in front. -/
def withoutSign : List Char → List Char
  | '-' :: rest => rest
  | '+' :: rest => rest
  | cs => cs

/-- A digit, or the low line that may stand between digits. -/
def isGroupedDigit (c : Char) : Bool := c.isDigit || c == '_'

/-- The text is digits with low lines among them, after a digit. -/
def isGrouped : List Char → Bool
  | first :: rest => first.isDigit && rest.all isGroupedDigit
  | [] => false

/-- One digit, or two digits below sixty. -/
def isSixtieth : List Char → Bool
  | [digit] => digit.isDigit
  | [tens, ones] => '0' ≤ tens && tens ≤ '5' && ones.isDigit
  | _ => false

/-- The text cut at every colon. -/
def colonParts : List Char → List (List Char)
  | [] => [[]]
  | c :: rest =>
    match colonParts rest with
    | [] => [[c]]
    | part :: others => if c = ':' then [] :: part :: others else (c :: part) :: others

/-- The text is a nonempty run of the characters. -/
def isRunOf (p : Char → Bool) (cs : List Char) : Bool := !cs.isEmpty && cs.all p

/-- A hexadecimal digit. -/
def isHexDigit (c : Char) : Bool :=
  c.isDigit || ('a' ≤ c && c ≤ 'f') || ('A' ≤ c && c ≤ 'F')

/-- The text is written like an integer: in base two, eight, ten, sixteen or sixty. -/
def isIntText (cs : List Char) : Bool :=
  match withoutSign cs with
  | [] => false
  | ['0'] => true
  | '0' :: 'b' :: digits => isRunOf (fun c => c == '0' || c == '1' || c == '_') digits
  | '0' :: 'x' :: digits => isRunOf (fun c => isHexDigit c || c == '_') digits
  | '0' :: digits => isRunOf (fun c => ('0' ≤ c && c ≤ '7') || c == '_') digits
  | unsigned =>
    match colonParts unsigned with
    | first :: sixtieths => isGrouped first && sixtieths.all isSixtieth
    | [] => false

/-- The text is an exponent: a letter `e`, a sign and digits. -/
def isExponent : List Char → Bool
  | mark :: sign :: digits =>
    (mark == 'e' || mark == 'E') && (sign == '-' || sign == '+') && isRunOf Char.isDigit digits
  | _ => false

/-- The text is nothing or an exponent. -/
def isExponentOrEmpty (cs : List Char) : Bool := cs.isEmpty || isExponent cs

/-- The text is written like a decimal number: with a point, perhaps with an exponent, or in base
sixty with a fraction, or as the word for an infinity or no number. -/
def isFloatText (cs : List Char) : Bool :=
  let unsigned := withoutSign cs
  let integral := unsigned.takeWhile (· != '.')
  match unsigned.dropWhile (· != '.') with
  | '.' :: fraction =>
    if integral.isEmpty then
      ["inf", "Inf", "INF"].contains (String.ofList fraction) ||
        (unsigned == cs &&
          (["nan", "NaN", "NAN"].contains (String.ofList fraction) ||
            (isGrouped (fraction.takeWhile isGroupedDigit) &&
              isExponentOrEmpty (fraction.dropWhile isGroupedDigit))))
    else
      match colonParts integral with
      | [whole] => isGrouped whole && isExponentOrEmpty (fraction.dropWhile isGroupedDigit)
      | whole :: sixtieths =>
        isGrouped whole && sixtieths.all isSixtieth && fraction.all isGroupedDigit
      | [] => false
  | _ => false

/-- The text is written like a date with two digits for month and day, or like a moment. -/
def isTimestampText (cs : List Char) : Bool :=
  match Timestamp.readWritten? cs with
  | some written => written.clock.isSome || cs.length == 10
  | none => false

/-- The tag that the text of a plain scalar implies; a line feed at its end counts for nothing. -/
def Tag.ofPlain (text : String) : Tag :=
  let cs := text.toList
  let cs := if cs.getLast? = some '\n' ∧ cs.length ≠ 1 then cs.dropLast else cs
  let word := String.ofList cs
  if boolWords.contains word then .bool
  else if isFloatText cs then .float
  else if isIntText cs then .int
  else if word = "<<" then .merge
  else if nullWords.contains word then .null
  else if isTimestampText cs then .timestamp
  else if word = "=" then .standIn
  else if word = "!" ∨ word = "&" ∨ word = "*" then .unknown
  else .text

end RamlInterfaces.Yaml
