/-
**Reading numbers from text.**

* `readBinary64`: a decimal notation with optional sign, point and exponent, or the name of an
  infinity or of the value that is no number;
* `readInt?`: an integer in a base, with a sign and the mark of the base;
* `withoutGroupMarks`: a text of digits grouped by low lines, without them.
-/

import RamlInterfaces.Number.Binary64
import RamlInterfaces.Number.Digits
import RamlInterfaces.Text.Blank

namespace RamlInterfaces.Number

/-- The sign at the start of a text, and what follows it. -/
def readSign : List Char → Bool × List Char
  | '-' :: rest => (true, rest)
  | '+' :: rest => (false, rest)
  | cs => (false, cs)

/-- The exponent that ends a decimal notation: nothing, or a letter `e`, a sign and digits. -/
def readExponent? : List Char → Option Int
  | [] => some 0
  | mark :: rest =>
    if mark = 'e' ∨ mark = 'E' then
      let (negative, digits) := readSign rest
      (ofDigits? 10 digits).map fun n => if negative then -(n : Int) else n
    else none

/-- A decimal notation without sign: digits, perhaps a point among them, perhaps an exponent. -/
def readUnsigned? (negative : Bool) (cs : List Char) : Option Binary64 :=
  let integral := cs.takeWhile Char.isDigit
  let afterIntegral := cs.dropWhile Char.isDigit
  let (fraction, afterFraction) := match afterIntegral with
    | '.' :: rest => (rest.takeWhile Char.isDigit, rest.dropWhile Char.isDigit)
    | rest => ([], rest)
  match ofDigits? 10 (integral ++ fraction), readExponent? afterFraction with
  | some digits, some exponent =>
    some (Binary64.ofDecimal negative digits (exponent - fraction.length))
  | _, _ => none

/-- The number that a decimal notation, or the name of an infinity or of no number, denotes. -/
def readBinary64 (cs : List Char) : Option Binary64 :=
  let (negative, rest) := readSign cs
  let word := rest.map Char.toLower
  if word = "inf".toList ∨ word = "infinity".toList then some (.infinite negative)
  else if word = "nan".toList then some .nan
  else readUnsigned? negative rest

/-- The digits of a text in which low lines may stand between other characters, one at a time. -/
def withoutGroupMarks (cs : List Char) : Option (List Char) :=
  let doubled := (cs.zip (cs.drop 1)).any fun pair => pair.1 == '_' && pair.2 == '_'
  if cs.head? = some '_' ∨ cs.getLast? = some '_' ∨ doubled then none
  else some (cs.filter (· != '_'))

/-- The mark that may stand before the digits of a base. -/
def baseMark : Nat → List Char
  | 2 => ['b', 'B']
  | 8 => ['o', 'O']
  | 16 => ['x', 'X']
  | _ => []

/-- The integer that a text denotes in a base: blanks around it, a sign and a mark of the base are
allowed, and low lines between digits.  In base ten its length is limited. -/
def readInt? (base : Nat) (cs : List Char) : Option Int :=
  let (negative, unsigned) := readSign (Text.dropLastWhile Text.isBlank (Text.dropBlanks cs))
  let digits := match unsigned with
    | '0' :: mark :: rest =>
      if (baseMark base).contains mark then
        match rest with
        | '_' :: more => more
        | more => more
      else unsigned
    | _ => unsigned
  match withoutGroupMarks digits with
  | some plain =>
    if base = 10 ∧ decimalSpan < plain.length then none
    else (ofDigits? base plain).map fun n => if negative then -(n : Int) else n
  | none => none

end RamlInterfaces.Number
