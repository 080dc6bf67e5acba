/-
**Digits.**

* `digitValue`: the value of a digit, letters of either case counting from ten;
* `ofDigits?`: the number that a text of digits in a base denotes;
* `decimal`, `decimalInt`: the digits of a number in base ten;
* `decimalSpan`, `decimalInt?`: the digits of an integer that has not too many of them;
* `padded`: the digits of a number with leading zeros up to a width.
-/

namespace RamlInterfaces.Number

/-- The value of a digit or letter, `a` and `A` counting ten. -/
def digitValue (c : Char) : Option Nat :=
  if c.isDigit then some (c.toNat - '0'.toNat)
  else if c.isLower then some (c.toNat - 'a'.toNat + 10)
  else if c.isUpper then some (c.toNat - 'A'.toNat + 10)
  else none

/-- The value of the digits read so far, extended by more digits of the base. -/
def extendDigits? (base value : Nat) : List Char → Option Nat
  | [] => some value
  | c :: rest =>
    match digitValue c with
    | some digit => if digit < base then extendDigits? base (value * base + digit) rest else none
    | none => none

/-- The number a nonempty list of digits denotes. -/
def ofDigits? (base : Nat) (cs : List Char) : Option Nat :=
  if cs.isEmpty then none else extendDigits? base 0 cs

/-- The decimal digits of a natural number. -/
def decimal (n : Nat) : List Char := Nat.toDigits 10 n

/-- The decimal digits of an integer, after a minus sign for a negative one. -/
def decimalInt (n : Int) : List Char :=
  if n < 0 then '-' :: decimal n.natAbs else decimal n.natAbs

/-- The greatest number of digits with which an integer is read or written in base ten. -/
def decimalSpan : Nat := 4300

/-- The decimal digits of an integer, after a minus sign for a negative one, unless they are too
many. -/
def decimalInt? (n : Int) : Option (List Char) :=
  if (decimal n.natAbs).length ≤ decimalSpan then some (decimalInt n) else none

/-- The decimal digits with leading zeros up to the width. -/
def padded (width n : Nat) : List Char :=
  let digits := decimal n
  List.replicate (width - digits.length) '0' ++ digits

end RamlInterfaces.Number
